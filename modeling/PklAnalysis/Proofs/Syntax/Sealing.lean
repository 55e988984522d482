import PklAnalysis.Proofs.Syntax.WellFormed

/-!
# Sealed spans

Sealing takes the nodes in the order in which they were added and reads the spans that it has widened
before. Where every node is added after what it lists, these are final by then. So the span of a node
comes out as the least one that covers its own span, its modifiers and the spans of its children as
far as they are not empty, and the links upwards are those of the lists of children
(`TreeBuilder.finish_exact`).

Only the ends of a span count for what lies within another one (`Span.Within`). So a span that was
added empty or the wrong way round is covered like any other one; it is as the final span of a child
that it is left out.
-/

namespace PklAnalysis

/-! ## Covering spans -/

namespace Span

variable {s t u : Span} {ss : List Span}

/-- A span lies within another one that starts no later and stops no earlier. -/
def Within (s t : Span) : Prop := t.start ≤ s.start ∧ s.stop ≤ t.stop

theorem Within.refl (s : Span) : s.Within s := ⟨Nat.le_refl _, Nat.le_refl _⟩

theorem Within.contains (h : s.Within t) {o : Nat} (ho : s.contains o = true) :
    t.contains o = true := by
  rw [contains_iff] at ho ⊢
  exact ⟨Nat.le_trans h.1 ho.1, Nat.lt_of_lt_of_le ho.2 h.2⟩

theorem cover_within_iff : (s.cover t).Within u ↔ s.Within u ∧ t.Within u := by
  unfold Within
  rw [cover_start, cover_stop, Nat.le_min, Nat.max_le]
  exact and_and_and_comm

theorem foldl_cover_within_iff : (ss.foldl cover s).Within u ↔ ∀ t ∈ s :: ss, t.Within u := by
  induction ss generalizing s with
  | nil => rw [List.forall_mem_singleton, List.foldl_nil]
  | cons t ss ih =>
    rw [List.foldl_cons, ih, List.forall_mem_cons, List.forall_mem_cons, List.forall_mem_cons,
      cover_within_iff, and_assoc]

/-- The least span within which all spans of a list lie. -/
structure LeastCover (ss : List Span) (u : Span) : Prop where
  within : ∀ s ∈ ss, s.Within u
  least : ∀ v, (∀ s ∈ ss, s.Within v) → u.Within v

theorem leastCover_foldl (s : Span) (ss : List Span) : LeastCover (s :: ss) (ss.foldl cover s) :=
  ⟨foldl_cover_within_iff.1 (.refl _), fun _ => foldl_cover_within_iff.2⟩

end Span

namespace TreeBuilder

/-! ## What was added -/

section

variable (b : TreeBuilder)

/-- The node that was added at a position, as it was added. -/
def added? (i : NodeIndex) : Option Node := b.nodes.reverse[i]?

/-- What the node at a position lists. -/
def listed (i : NodeIndex) : List NodeIndex := ((b.added? i).map (·.construct.children)).getD []

/-- A node gets the next position, and what was added before stays where it is. -/
theorem added?_push (c : Construct) (span : Span) (i : NodeIndex) :
    (b.push c span).2.added? i = if i = (b.push c span).1 then some ⟨c, span, none⟩
      else b.added? i := by
  have hs : b.size = b.nodes.reverse.length := by rw [b.size_eq, List.length_reverse]
  show (⟨c, span, none⟩ :: b.nodes).reverse[i]? = if i = b.size then _ else b.nodes.reverse[i]?
  rw [List.reverse_cons, hs]
  rcases Nat.lt_trichotomy i b.nodes.reverse.length with h | h | h
  · rw [List.getElem?_append_left h, if_neg (Nat.ne_of_lt h)]
  · rw [h, List.getElem?_concat_length, if_pos rfl]
  · rw [if_neg (Nat.ne_of_gt h), List.getElem?_eq_none (Nat.le_of_lt h), List.getElem?_eq_none]
    rw [List.length_append]
    exact h

theorem lt_size_of_listed {i j : NodeIndex} (h : j ∈ b.listed i) : i < b.size := by
  unfold listed at h
  cases ha : b.added? i with
  | none =>
    rw [ha] at h
    cases h
  | some n =>
    rw [b.size_eq, ← List.length_reverse]
    exact (List.getElem?_eq_some_iff.1 ha).1

/-- Every node was added after what it lists. -/
def BottomUp : Prop := ∀ {i j : NodeIndex}, j ∈ b.listed i → j < i

/-- No node is listed by two nodes. -/
def Unshared : Prop := ∀ {i k j : NodeIndex}, j ∈ b.listed i → j ∈ b.listed k → i = k

instance : Decidable b.BottomUp :=
  decidable_of_iff (∀ i < b.size, ∀ j ∈ b.listed i, j < i)
    ⟨fun h _ _ hj => h _ (b.lt_size_of_listed hj) _ hj, fun h _ _ _ hj => h hj⟩

instance : Decidable b.Unshared :=
  decidable_of_iff (∀ i < b.size, ∀ k < b.size, ∀ j ∈ b.listed i, j ∈ b.listed k → i = k)
    ⟨fun h _ _ _ hj hk => h _ (b.lt_size_of_listed hj) _ (b.lt_size_of_listed hk) _ hj hk,
      fun h _ _ _ _ _ hj hk => h hj hk⟩

theorem children_finish (root i : NodeIndex) : (b.finish root).children i = b.listed i := by
  unfold SyntaxTree.children listed
  rw [construct?_finish, Option.map_map]
  rfl

end

/-! ## One node after the other -/

section

variable (all : Array Node)

/-- The spans of nodes that are sealed one after the other. -/
def sealedOf (ns : List Node) : Array Span :=
  ns.foldl (fun done n => done.push (sealedSpan all done n)) #[]

variable {all} {ns ms : List Node} {n : Node}

theorem sealedOf_concat :
    sealedOf all (ns ++ [n]) = (sealedOf all ns).push (sealedSpan all (sealedOf all ns) n) :=
  List.foldl_concat ..

theorem size_sealedOf : (sealedOf all ns).size = ns.length := by
  induction ns using List.reverseRecOn with
  | nil => rfl
  | append_singleton ns n ih =>
    rw [sealedOf_concat, Array.size_push, ih, List.length_append, List.length_singleton]

/-- What is sealed keeps its span when further nodes are. -/
theorem getElem?_sealedOf_append {i : Nat} (hi : i < ns.length) :
    (sealedOf all (ns ++ ms))[i]? = (sealedOf all ns)[i]? := by
  induction ms using List.reverseRecOn with
  | nil => rw [List.append_nil]
  | append_singleton ms m ih =>
    have later : i ≠ (sealedOf all (ns ++ ms)).size := by
      rw [size_sealedOf, List.length_append]
      omega
    rw [← List.append_assoc, sealedOf_concat, Array.getElem?_push, if_neg later, ih]

/-- A node is sealed when those before it are. -/
theorem getElem?_sealedOf {i : Nat} (h : ns[i]? = some n) :
    (sealedOf all ns)[i]? = some (sealedSpan all (sealedOf all (ns.take i)) n) := by
  obtain ⟨hi, rfl⟩ := List.getElem?_eq_some_iff.1 h
  have hl : (ns.take i).length = i := List.length_take_of_le (Nat.le_of_lt hi)
  have split : ns = (ns.take i ++ [ns[i]]) ++ ns.drop (i + 1) := by
    rw [List.append_assoc, List.singleton_append, List.getElem_cons_drop, List.take_append_drop]
  have here : i < (ns.take i ++ [ns[i]]).length := by
    rw [List.length_append, hl]
    exact Nat.lt_succ_self i
  have pushed : i = (sealedOf all (ns.take i)).size := by rw [size_sealedOf, hl]
  calc (sealedOf all ns)[i]?
      = (sealedOf all (ns.take i ++ [ns[i]]))[i]? := by
        conv_lhs => rw [split]
        exact getElem?_sealedOf_append here
    _ = _ := by rw [sealedOf_concat, Array.getElem?_push, if_pos pushed]

/-- A node whose children have the spans `f` is sealed with what covers its own span, its modifiers,
and the spans of its children that are not empty. -/
theorem sealedSpan_eq {done : Array Span} {f : NodeIndex → Span}
    (h : ∀ c ∈ n.construct.children, done[c]? = some (f c)) :
    sealedSpan all done n = (n.construct.modifierTokens.map (·.span) ++
      (n.construct.children.map f).filter (fun s => !s.isEmpty)).foldl Span.cover n.span := by
  unfold sealedSpan
  rw [List.foldl_append, List.foldl_map, List.foldl_filter, List.foldl_map]
  refine List.foldl_ext _ _ _ (fun s c hc => ?_)
  rw [h c hc]
  show (if (f c).isEmpty = true then s else s.cover (f c)) = _
  cases (f c).isEmpty <;> rfl

end

/-! ## Sealing -/

section

variable {b : TreeBuilder} {root i : NodeIndex} {n : Node}

theorem span_finish (h : b.added? i = some n) :
    (b.finish root).span i =
      ((sealedOf b.nodes.reverse.toArray b.nodes.reverse)[i]?).getD n.span := by
  have spans : sealedSpans b.nodes.reverse.toArray =
      sealedOf b.nodes.reverse.toArray b.nodes.reverse := List.foldl_toArray ..
  unfold added? at h
  simp only [SyntaxTree.span, SyntaxTree.node?, finish, spans, List.getElem?_toArray,
    List.getElem?_map, List.getElem?_zipIdx, h, Option.map_some, Option.getD_some, Nat.zero_add]

/-- The spans that a sealed node covers: its own, those of its modifiers, and those of its children
that are not empty. -/
def coveredSpans (t : SyntaxTree) (n : Node) : List Span :=
  n.span :: (n.construct.modifierTokens.map (·.span) ++
    (n.construct.children.map t.span).filter (fun s => !s.isEmpty))

/-- Where nodes are added bottom-up, the span of a sealed node is the least cover. -/
theorem leastCover_finish (hb : b.BottomUp) (h : b.added? i = some n) :
    Span.LeastCover (coveredSpans (b.finish root) n) ((b.finish root).span i) := by
  let all := b.nodes.reverse.toArray
  have sealedAt : ∀ {j m}, b.added? j = some m →
      (sealedOf all b.nodes.reverse)[j]? = some ((b.finish root).span j) := by
    intro j m hj
    rw [span_finish hj, getElem?_sealedOf hj]
    rfl
  have before : ∀ c ∈ n.construct.children,
      (sealedOf all (b.nodes.reverse.take i))[c]? = some ((b.finish root).span c) := by
    intro c hc
    have listed : c ∈ b.listed i := by
      unfold TreeBuilder.listed
      rw [h]
      exact hc
    have hci : c < i := hb listed
    have hi : i < b.nodes.reverse.length := (List.getElem?_eq_some_iff.1 h).1
    have hl : c < (b.nodes.reverse.take i).length := by
      rw [List.length_take_of_le (Nat.le_of_lt hi)]
      exact hci
    have whole : (sealedOf all (b.nodes.reverse.take i ++ b.nodes.reverse.drop i))[c]? =
        (sealedOf all (b.nodes.reverse.take i))[c]? := getElem?_sealedOf_append hl
    rw [← whole, List.take_append_drop]
    exact sealedAt (List.getElem?_eq_getElem (Nat.lt_trans hci hi))
  rw [span_finish h, getElem?_sealedOf h, Option.getD_some, sealedSpan_eq before]
  exact Span.leastCover_foldl ..

/-- A node contains what its children contain. -/
theorem contains_of_listed (hb : b.BottomUp) {j : NodeIndex} (h : j ∈ b.listed i) {o : Nat}
    (ho : ((b.finish root).span j).contains o = true) :
    ((b.finish root).span i).contains o = true := by
  unfold listed at h
  cases ha : b.added? i with
  | none =>
    rw [ha] at h
    cases h
  | some n =>
    rw [ha] at h
    refine ((leastCover_finish hb ha).within _ ?_).contains ho
    have occupied : ((b.finish root).span j).isEmpty = false := by
      rw [Span.contains_iff] at ho
      exact decide_eq_false (Nat.not_le_of_lt (Nat.lt_of_le_of_lt ho.1 ho.2))
    refine List.mem_cons_of_mem _ (List.mem_append_right _ (List.mem_filter.2 ⟨?_, ?_⟩))
    · exact List.mem_map_of_mem h
    · rw [occupied]
      rfl

end

/-- Sealing nodes that were added bottom-up, none of them listed by two, keeps their lists of
children, links each node to the one that lists it and to no other, and makes the span of each the
least one that covers its own, its modifiers and its children that are not empty. -/
theorem finish_exact (b : TreeBuilder) (root : NodeIndex) (hb : b.BottomUp) (hu : b.Unshared) :
    (∀ p, (b.finish root).children p = b.listed p ∧
      ∀ c, (b.finish root).parent? c = some p ↔ c ∈ b.listed p) ∧
    ∀ i n, b.added? i = some n →
      Span.LeastCover (coveredSpans (b.finish root) n) ((b.finish root).span i) := by
  have linked := linked_finish b root
  refine ⟨fun p => ⟨b.children_finish root p, fun c => ⟨fun h => ?_, fun h => ?_⟩⟩,
    fun i n h => leastCover_finish hb h⟩
  · rw [← b.children_finish root]
    exact linked.listed h
  · have lists : (b.finish root).Lists p c := by
      unfold SyntaxTree.Lists
      rwa [b.children_finish root]
    obtain ⟨q, hq⟩ := Option.isSome_iff_exists.1
      (linked.linked lists (Nat.lt_trans (hb h) lists.lt_size))
    have hl : c ∈ b.listed q := b.children_finish root q ▸ linked.listed hq
    rw [hq, hu hl h]

/-- A property with a modifier in front of its span, a type that is the wrong way round and a value
behind it, in a module that is empty itself. -/
def patchwork : TreeBuilder :=
  let b := start "file:///patchwork.pkl" 1
  let (type, b) := b.push (.declaredType none "Int" []) ⟨9, 4⟩
  let (value, b) := b.push (.intLit 1) ⟨20, 25⟩
  let declared : PropertyDecl :=
    { name := "x", modifiers := [⟨.localKw, ⟨2, 7⟩⟩], type := some type, value := some value }
  let (property, b) := b.push (.property declared) ⟨12, 15⟩
  (b.push (.module { members := [property] }) ⟨30, 30⟩).2

/-- The type is covered by nothing, since it is empty. -/
theorem finish_exact_patchwork :
    patchwork.BottomUp ∧ patchwork.Unshared ∧
      (patchwork.finish 3).parent? 0 = some 2 ∧
      Span.LeastCover [⟨12, 15⟩, ⟨2, 7⟩, ⟨20, 25⟩] ((patchwork.finish 3).span 2) ∧
      (patchwork.finish 3).span 2 = ⟨2, 25⟩ ∧ (patchwork.finish 3).span 3 = ⟨2, 30⟩ := by
  have up : patchwork.BottomUp := by decide
  have unshared : patchwork.Unshared := by decide
  obtain ⟨links, covers⟩ := finish_exact patchwork 3 up unshared
  refine ⟨up, unshared, ((links 2).2 0).2 (by decide), covers 2 _ rfl, by decide, by decide⟩

end TreeBuilder

end PklAnalysis
