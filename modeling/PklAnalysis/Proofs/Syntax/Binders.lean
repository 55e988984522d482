import Mathlib.Data.List.Chain
import PklAnalysis.Proofs.Syntax.WellFormed

/-!
# Binders

Five kinds of constructs bind parameters. Those of a `let`, a lambda and a generator are meant for
one part of the construct, its body; those of a method and of an object body are meant for all of it
(`Construct.boundParams`, `Construct.boundIn?`).

In a lexical tree nodes are listed once, parameters are listed where they are bound, and no way up is
cut. There a node is an ancestor exactly if it holds the other one by what it lists
(`Lexical.mem_ancestors_iff`), and the step that a way up takes into a construct tells in which part
of the construct it began (`Lexical.part_eq_iff`). Nothing is assumed about the place of modules;
`SyntaxTree.enclosing` stops at the innermost one.
-/

namespace PklAnalysis

namespace Construct

def isParam : Construct → Bool
  | .param _ => true
  | _ => false

/-- The parameters that a construct binds, in the order of their declaration. -/
def boundParams : Construct → List NodeIndex
  | .letIn p _ _ => [p]
  | .lambda ps _ => ps
  | .forGenerator key value _ _ => key.toList ++ [value]
  | .method d => d.params
  | .objectBody ps _ => ps
  | _ => []

/-- The part of a construct in which its parameters are visible; all of it, if there is none. -/
def boundIn? : Construct → Option NodeIndex
  | .letIn _ _ body => some body
  | .lambda _ body => some body
  | .forGenerator _ _ _ body => some body
  | _ => none

theorem mem_children_of_boundParams {c : Construct} {p : NodeIndex} (h : p ∈ c.boundParams) :
    p ∈ c.children := by
  cases c with
  | letIn | lambda | forGenerator | method | objectBody =>
    simp only [boundParams, children, List.mem_append, List.mem_cons] at h ⊢
    tauto
  | _ => cases h

theorem mem_children_of_boundIn? {c : Construct} {body : NodeIndex} (h : body ∈ c.boundIn?) :
    body ∈ c.children := by
  cases c with
  | letIn | lambda | forGenerator =>
    cases h
    simp [children]
  | _ => cases h

end Construct

namespace SyntaxTree

variable (t : SyntaxTree)

/-- Nodes are listed once, and parameters only where they are bound. Every way up ends before a walk
gives up. -/
structure Lexical : Prop extends Linked t where
  once : ∀ {i j k}, t.Lists i j → t.Lists k j → j < t.size → k = i ∧ (t.children i).count j = 1
  bound : ∀ {i j c p}, t.construct? i = some c → j ∈ c.children → t.construct? j = some (.param p) →
    j ∈ c.boundParams
  bounded : ∀ i, (t.ancestors i).length < Limits.treeWalk

/-- The ancestors of a node inside the innermost module around it, innermost first. -/
def enclosing (i : NodeIndex) : List NodeIndex :=
  (t.ancestors i).takeWhile (fun a => !t.holdsAt a Construct.isModule)

open Classical in
/-- The parameters that the construct at `i` binds, if the site lies where they are visible. -/
noncomputable def boundAround (site i : NodeIndex) : List NodeIndex :=
  match t.construct? i with
  | none => []
  | some c =>
    if ∀ body ∈ c.boundIn?, Relation.ReflTransGen t.Lists body site then c.boundParams else []

variable {t} {i j k a b site : NodeIndex}

theorem Lists.exists_construct (h : t.Lists i j) :
    ∃ c, t.construct? i = some c ∧ j ∈ c.children := by
  unfold Lists children at h
  cases hc : t.construct? i with
  | none =>
    rw [hc] at h
    cases h
  | some c =>
    rw [hc] at h
    exact ⟨c, rfl, h⟩

theorem mem_boundAround {p : NodeIndex} :
    p ∈ t.boundAround site i ↔ ∃ c, t.construct? i = some c ∧ p ∈ c.boundParams ∧
      ∀ body ∈ c.boundIn?, Relation.ReflTransGen t.Lists body site := by
  unfold boundAround
  cases t.construct? i with
  | none => simp
  | some c =>
    dsimp only
    split <;> simp_all

theorem boundAround_of_everywhere {c : Construct} (hc : t.construct? i = some c)
    (hb : c.boundIn? = none) : t.boundAround site i = c.boundParams := by
  unfold boundAround
  rw [hc]
  dsimp only
  rw [hb]
  exact if_pos (fun _ hn => nomatch hn)

theorem boundAround_of_part {c : Construct} (hc : t.construct? i = some c) {body : NodeIndex}
    (hb : c.boundIn? = some body) (hpart : body = a ↔ Relation.ReflTransGen t.Lists body site) :
    t.boundAround site i = if body = a then c.boundParams else [] := by
  unfold boundAround
  rw [hc]
  dsimp only
  by_cases ha : body = a
  · have inside : ∀ b ∈ c.boundIn?, Relation.ReflTransGen t.Lists b site := by
      intro b hb'
      rw [hb] at hb'
      cases hb'
      exact hpart.1 ha
    rw [if_pos inside, if_pos ha]
  · rw [if_neg (fun inside => ha (hpart.2 (inside body hb))), if_neg ha]

/-! ## Ways up -/

theorem not_ancestor_of_root (hi : t.parent? i = none) : ¬ t.Ancestor a i := by
  intro ha
  obtain ⟨_, _, hp⟩ := Relation.TransGen.tail'_iff.1 ha
  cases hi.symm.trans hp

/-- The ancestors of a node are its parent and the ancestors of its parent. -/
theorem ancestor_step {p : NodeIndex} (hp : t.parent? i = some p) :
    t.Ancestor a i ↔ a = p ∨ t.Ancestor a p := by
  unfold Ancestor
  rw [Relation.TransGen.tail'_iff]
  constructor
  · rintro ⟨q, hq, hqi⟩
    cases hqi.symm.trans hp
    exact (Relation.reflTransGen_iff_eq_or_transGen.1 hq).imp Eq.symm id
  · intro ha
    exact ⟨p, Relation.reflTransGen_iff_eq_or_transGen.2 (ha.imp Eq.symm id), hp⟩

/-- A way up that leads back to its start never ends. -/
theorem length_chainUp_of_cycle (h : t.Ancestor i i) (n : Nat) :
    (t.chainUp n (t.parent? i)).length = n := by
  induction n generalizing i with
  | zero => rfl
  | succ n ih =>
    obtain ⟨k, hik, hk⟩ := Relation.TransGen.tail'_iff.1 h
    have back : t.Ancestor k k := Relation.TransGen.head' hk hik
    rw [hk, chainUp, List.length_cons, ih back]

/-- A way up that was not cut visits every ancestor. -/
theorem mem_chainUp_of_ancestor (h : t.Ancestor a i) {n : Nat}
    (hn : (t.chainUp n (t.parent? i)).length < n) : a ∈ t.chainUp n (t.parent? i) := by
  induction n generalizing i with
  | zero => cases hn
  | succ n ih =>
    cases hp : t.parent? i with
    | none => exact absurd h (not_ancestor_of_root hp)
    | some p =>
      rw [hp, chainUp, List.length_cons, Nat.add_lt_add_iff_right] at hn
      rw [chainUp, List.mem_cons]
      exact ((ancestor_step hp).1 h).imp id (fun hap => ih hap hn)

theorem holdsAt_isModule :
    t.holdsAt i Construct.isModule = true ↔ ∃ d, t.construct? i = some (.module d) := by
  unfold holdsAt
  cases t.construct? i with
  | none => simp
  | some c => cases c <;> simp [Construct.isModule]

namespace Lexical

variable (h : t.Lexical)

include h

theorem not_ancestor_self (i : NodeIndex) : ¬ t.Ancestor i i := by
  intro hi
  have hl := h.bounded i
  rw [ancestors, length_chainUp_of_cycle hi] at hl
  exact absurd hl (Nat.lt_irrefl _)

theorem parent?_iff : t.parent? j = some i ↔ t.Lists i j ∧ j < t.size := by
  constructor
  · exact fun hj => ⟨h.listed hj, lt_size_of_parent? hj⟩
  · rintro ⟨hl, hj⟩
    obtain ⟨k, hk⟩ := Option.isSome_iff_exists.1 (h.linked hl hj)
    rw [hk, (h.once hl (h.listed hk) hj).1]

theorem ancestor_iff (hj : j < t.size) : t.Ancestor i j ↔ Relation.TransGen t.Lists i j := by
  constructor
  · intro hij
    induction hij with
    | single hp => exact .single (h.listed hp)
    | tail _ hp ih => exact (ih (h.listed hp).lt_size).tail (h.listed hp)
  · intro hij
    induction hij with
    | single hl => exact .single (h.parent?_iff.2 ⟨hl, hj⟩)
    | tail _ hl ih => exact (ih hl.lt_size).tail (h.parent?_iff.2 ⟨hl, hj⟩)

/-- The ancestors of a node are the nodes that hold it by what they list. -/
theorem mem_ancestors_iff (hj : j < t.size) :
    i ∈ t.ancestors j ↔ Relation.TransGen t.Lists i j := by
  rw [← h.ancestor_iff hj]
  exact ⟨ancestor_of_mem_ancestors, fun hi => mem_chainUp_of_ancestor hi (h.bounded j)⟩

theorem reflTransGen_up (hij : Relation.ReflTransGen t.Lists i j) (hj : j < t.size) :
    Relation.ReflTransGen (fun j p => t.parent? j = some p) j i := by
  rw [Relation.reflTransGen_swap]
  rcases Relation.reflTransGen_iff_eq_or_transGen.1 hij with rfl | hij
  · exact .refl
  · exact ((h.ancestor_iff hj).2 hij).to_reflTransGen

/-- Two parts of one construct do not hold the same place. -/
theorem part_unique (ha : t.Lists i a) (hb : t.Lists i b) (hs : site < t.size)
    (has : Relation.ReflTransGen t.Lists a site) (hbs : Relation.ReflTransGen t.Lists b site) :
    a = b := by
  have size : ∀ {c}, Relation.ReflTransGen t.Lists c site → c < t.size := by
    intro c hc
    rcases hc.cases_head with rfl | ⟨d, hd, _⟩
    · exact hs
    · exact hd.lt_size
  have parent : ∀ {c}, t.Lists i c → Relation.ReflTransGen t.Lists c site →
      t.parent? c = some i := fun hc hcs => h.parent?_iff.2 ⟨hc, size hcs⟩
  -- Going up from one part to the other would lead through the construct, and back to it.
  have apart : ∀ {c d}, t.parent? c = some i → t.parent? d = some i →
      Relation.ReflTransGen (fun j p => t.parent? j = some p) c d → c = d := by
    intro c d hc hd hcd
    rcases hcd.cases_head with rfl | ⟨k, hk, hkd⟩
    · rfl
    · cases hc.symm.trans hk
      have hup : Relation.ReflTransGen (fun p j => t.parent? j = some p) d i := by
        rw [Relation.reflTransGen_swap] at hkd
        exact hkd
      have back : t.Ancestor i i := .head' hd hup
      exact absurd back (h.not_ancestor_self i)
  have unique : Relator.RightUnique (fun j p => t.parent? j = some p) :=
    fun _ _ _ hx hy => Option.some.inj (hx.symm.trans hy)
  rcases Relation.ReflTransGen.total_of_right_unique unique (h.reflTransGen_up has hs)
    (h.reflTransGen_up hbs hs) with hab | hba
  · exact apart (parent ha has) (parent hb hbs) hab
  · exact (apart (parent hb hbs) (parent ha has) hba).symm

/-- The step into a construct on the way up from a place tells in which part the place lies. -/
theorem part_eq_iff (hk : t.parent? k = some i) (hs : site < t.size)
    (hks : Relation.ReflTransGen t.Lists k site) (ha : t.Lists i a) :
    a = k ↔ Relation.ReflTransGen t.Lists a site :=
  ⟨fun e => e ▸ hks, fun has => h.part_unique ha (h.listed hk) hs has hks⟩

/-! ## Inside the innermost module -/

/-- What stands before the first module on a way up that was not cut. -/
theorem mem_takeWhile_chainUp_iff {n : Nat} (hn : (t.chainUp n (t.parent? j)).length < n) :
    i ∈ (t.chainUp n (t.parent? j)).takeWhile (fun a => !t.holdsAt a Construct.isModule) ↔
      t.Ancestor i j ∧ ∀ k, t.holdsAt k Construct.isModule → t.Ancestor k j → t.Ancestor k i := by
  induction n generalizing j with
  | zero => cases hn
  | succ n ih =>
    cases hp : t.parent? j with
    | none => exact iff_of_false List.not_mem_nil (fun hi => not_ancestor_of_root hp hi.1)
    | some p =>
      rw [hp, chainUp, List.length_cons, Nat.add_lt_add_iff_right] at hn
      rw [chainUp, List.takeWhile_cons]
      cases hm : t.holdsAt p Construct.isModule with
      | true =>
        -- The module encloses no ancestor of its own.
        refine iff_of_false List.not_mem_nil (fun hi => ?_)
        have back := hi.2 p hm ((ancestor_step hp).2 (.inl rfl))
        rcases (ancestor_step hp).1 hi.1 with rfl | hip
        · exact h.not_ancestor_self _ back
        · exact h.not_ancestor_self _ (back.trans hip)
      | false =>
        have modules : ∀ k, t.holdsAt k Construct.isModule → t.Ancestor k j → t.Ancestor k p := by
          intro k hk hkj
          rcases (ancestor_step hp).1 hkj with rfl | hkp
          · rw [hm] at hk
            cases hk
          · exact hkp
        rw [Bool.not_false, if_pos rfl, List.mem_cons, ih hn]
        constructor
        · rintro (rfl | ⟨hip, all⟩)
          · exact ⟨(ancestor_step hp).2 (.inl rfl), modules⟩
          · exact ⟨(ancestor_step hp).2 (.inr hip), fun k hk hkj => all k hk (modules k hk hkj)⟩
        · rintro ⟨hij, all⟩
          refine ((ancestor_step hp).1 hij).imp id (fun hip => ⟨hip, fun k hk hkp => ?_⟩)
          exact all k hk ((ancestor_step hp).2 (.inr hkp))

/-- The enclosing nodes are those around the place that every module around it encloses as well. -/
theorem mem_enclosing_iff (hj : j < t.size) :
    i ∈ t.enclosing j ↔ Relation.TransGen t.Lists i j ∧
      ∀ k d, t.construct? k = some (.module d) → Relation.TransGen t.Lists k j →
        Relation.TransGen t.Lists k i := by
  rw [enclosing, ancestors, h.mem_takeWhile_chainUp_iff (h.bounded j), h.ancestor_iff hj]
  refine and_congr_right (fun hij => ?_)
  have hi : i < t.size := by
    obtain ⟨_, hl, _⟩ := Relation.TransGen.head'_iff.1 hij
    exact hl.lt_size
  constructor
  · intro all k d hk hkj
    exact (h.ancestor_iff hi).1 (all k (holdsAt_isModule.2 ⟨d, hk⟩) ((h.ancestor_iff hj).2 hkj))
  · intro all k hk hkj
    obtain ⟨d, hd⟩ := holdsAt_isModule.1 hk
    exact (h.ancestor_iff hi).2 (all k d hd ((h.ancestor_iff hj).1 hkj))

/-- The enclosing nodes come innermost first, each listing the one before. -/
theorem isChain_enclosing (j : NodeIndex) :
    (j :: t.enclosing j).IsChain (fun j i => t.Lists i j) := by
  have up : ∀ n j, (j :: t.chainUp n (t.parent? j)).IsChain (fun j i => t.Lists i j) := by
    intro n
    induction n with
    | zero => exact fun _ => .singleton _
    | succ n ih =>
      intro j
      cases hp : t.parent? j with
      | none => exact .singleton _
      | some p =>
        rw [chainUp]
        exact .cons_cons (h.listed hp) (ih p)
  exact List.IsChain.prefix (up _ j) (List.cons_prefix_cons.2 ⟨rfl, List.takeWhile_prefix _⟩)

/-! ## Where parameters stand -/

/-- Nothing listed besides the parameters that a construct binds is a parameter. -/
theorem not_isParam {c d : Construct} (hc : t.construct? i = some c) (hj : j ∈ c.children)
    (hb : j ∈ c.boundParams → 2 ≤ c.children.count j) (hd : t.construct? j = some d) :
    d.isParam = false := by
  cases d with
  | param p =>
    have hl := lists_of_construct hc hj
    have once := (h.once hl hl (lt_size_of_construct hd)).2
    have twice := hb (h.bound hc hj hd)
    unfold children at once
    rw [hc, Option.map_some, Option.getD_some] at once
    omega
  | _ => rfl

/-- No member of a module, a class or an object body is a parameter. -/
theorem not_isParam_of_mem_membersOf {d : Construct} (hj : j ∈ t.membersOf i)
    (hd : t.construct? j = some d) : d.isParam = false := by
  obtain ⟨c, hc, hjc⟩ := (lists_of_mem_membersOf hj).exists_construct
  unfold membersOf at hj
  rw [hc, Option.map_some, Option.getD_some] at hj
  refine h.not_isParam hc hjc (fun hb => ?_) hd
  cases c with
  | objectBody ps ms =>
    show 2 ≤ (ps ++ ms).count j
    have hp : 1 ≤ ps.count j := List.count_pos_iff.2 hb
    have hm : 1 ≤ ms.count j := List.count_pos_iff.2 hj
    rw [List.count_append]
    omega
  | module | classDecl => cases hb
  | _ => cases hj

end Lexical

/-! ## Trees in order -/

/-- Whether the numbers differ from each other and from those whose bits are set. -/
def distinctFrom : Nat → List Nat → Bool
  | _, [] => true
  | mask, j :: js => !mask.testBit j && distinctFrom (mask ||| 1 <<< j) js

theorem nodup_of_distinctFrom {mask : Nat} {js : List Nat} (h : distinctFrom mask js = true) :
    js.Nodup ∧ ∀ j ∈ js, mask.testBit j = false := by
  induction js generalizing mask with
  | nil => exact ⟨List.nodup_nil, fun _ hj => nomatch hj⟩
  | cons j js ih =>
    rw [distinctFrom, Bool.and_eq_true, Bool.not_eq_true'] at h
    obtain ⟨nodup, clear⟩ := ih h.2
    have apart : ∀ k ∈ js, mask.testBit k = false ∧ j ≠ k := by
      intro k hk
      have bits := clear k hk
      rw [Nat.testBit_or, Bool.or_eq_false_iff, Nat.one_shiftLeft, Nat.testBit_two_pow] at bits
      exact ⟨bits.1, of_decide_eq_false bits.2⟩
    refine ⟨List.nodup_cons.2 ⟨fun hj => (apart j hj).2 rfl, nodup⟩, fun k hk => ?_⟩
    rcases List.mem_cons.1 hk with rfl | hk
    · exact h.1
    · exact (apart k hk).1

/-- The number whose bits tell which nodes are parameters. -/
def paramBits : List Node → Nat
  | [] => 0
  | n :: ns => 2 * paramBits ns + n.construct.isParam.toNat

theorem testBit_paramBits (ns : List Node) (i : Nat) :
    (paramBits ns).testBit i = (ns[i]?).any (·.construct.isParam) := by
  induction ns generalizing i with
  | nil => simp [paramBits]
  | cons n ns ih =>
    cases i with
    | zero => cases hn : n.construct.isParam <;> simp [paramBits, hn, Nat.testBit_zero]
    | succ i =>
      have half : (2 * paramBits ns + n.construct.isParam.toNat) / 2 = paramBits ns := by
        cases n.construct.isParam <;> simp only [Bool.toNat_true, Bool.toNat_false] <;> omega
      rw [paramBits, Nat.testBit_succ, List.getElem?_cons_succ, ← ih, half]

theorem length_chainUp_of_ordered (up : ∀ {i j : Nat}, t.parent? j = some i → j < i ∧ i < t.size)
    (n : Nat) (i : NodeIndex) : (t.chainUp n (t.parent? i)).length ≤ t.size - 1 - i := by
  induction n generalizing i with
  | zero => exact Nat.zero_le _
  | succ n ih =>
    cases hp : t.parent? i with
    | none => exact Nat.zero_le _
    | some p =>
      have hip := up hp
      have rest := ih p
      rw [chainUp, List.length_cons]
      omega

/-- A tree whose nodes stand before the ones that list them is lexical if no node is listed twice and
parameters stand where they are bound. -/
theorem lexical_of_ordered (linked : t.Linked)
    (once : distinctFrom 0 (t.nodes.toList.flatMap (·.construct.children)) = true)
    (down : ∀ p ∈ t.nodes.toList.zipIdx, ∀ j ∈ p.1.construct.children, j < p.2)
    (params : ∀ n ∈ t.nodes.toList, ∀ j ∈ n.construct.children,
      (paramBits t.nodes.toList).testBit j = true → j ∈ n.construct.boundParams)
    (small : t.nodes.toList.length ≤ Limits.treeWalk) : t.Lexical := by
  have node : ∀ {i c}, t.construct? i = some c →
      ∃ n, t.nodes.toList[i]? = some n ∧ n.construct = c := by
    intro i c hc
    obtain ⟨n, hn, hnc⟩ := Option.map_eq_some_iff.1 hc
    exact ⟨n, by rw [Array.getElem?_toList]; exact hn, hnc⟩
  have below : ∀ {i j : Nat}, t.parent? j = some i → j < i ∧ i < t.size := by
    intro i j hj
    obtain ⟨c, hc, hjc⟩ := (linked.listed hj).exists_construct
    obtain ⟨n, hn, rfl⟩ := node hc
    exact ⟨down ⟨n, i⟩ (List.mem_zipIdx_iff_getElem?.2 hn) j hjc, lt_size_of_construct hc⟩
  refine ⟨linked, fun {i j k} hi hk _ => ?_, fun {i j c p} hc hj hp => ?_, fun i => ?_⟩
  · obtain ⟨c, hc, hjc⟩ := hi.exists_construct
    obtain ⟨d, hd, hjd⟩ := hk.exists_construct
    obtain ⟨n, hn, rfl⟩ := node hc
    obtain ⟨m, hm, rfl⟩ := node hd
    obtain ⟨each, apart⟩ := List.nodup_flatMap.1 (nodup_of_distinctFrom once).1
    constructor
    · by_contra hne
      obtain ⟨hil, rfl⟩ := List.getElem?_eq_some_iff.1 hn
      obtain ⟨hkl, rfl⟩ := List.getElem?_eq_some_iff.1 hm
      rcases Nat.lt_or_gt_of_ne hne with hlt | hlt
      · exact List.pairwise_iff_getElem.1 apart k i hkl hil hlt hjd hjc
      · exact List.pairwise_iff_getElem.1 apart i k hil hkl hlt hjc hjd
    · rw [children, hc, Option.map_some, Option.getD_some]
      exact List.count_eq_one_of_mem (each n (List.mem_of_getElem? hn)) hjc
  · obtain ⟨n, hn, rfl⟩ := node hc
    obtain ⟨m, hm, hmp⟩ := node hp
    refine params n (List.mem_of_getElem? hn) j hj ?_
    rw [testBit_paramBits, hm, Option.any_some, hmp]
    rfl
  · have short := length_chainUp_of_ordered below Limits.treeWalk i
    have some_walk : 0 < Limits.treeWalk := by decide
    rw [Array.length_toList] at small
    rw [ancestors]
    unfold size at short
    omega

end SyntaxTree

end PklAnalysis
