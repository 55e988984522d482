import PklAnalysis.Completion
import PklAnalysis.Proofs.Syntax.WellFormed
import PklAnalysis.Proofs.Text.Pieces
import Std.Data.String.ToNat

/-!
# Names of lambda parameters

A lambda is suggested for every function type, whatever parentheses and question marks stand around
it, with one name for each parameter (`lambdaParameterNames_distinct`). A name that several types
suggest is numbered. The numbers tell its own parameters apart, but a numbered name can be that of
another type, so the names are distinct exactly if the types that suggest different names have no
label in common (`nodup_numbered_iff`). They have none if no suggested name ends in a digit
(`nodup_numbered`).
-/

namespace PklAnalysis

namespace SyntaxTree

variable {t : SyntaxTree} {m n i j : NodeIndex} {params params' : List NodeIndex}
  {names : List String} {a b x : String}

/-! ## Function types -/

/-- The node is a function type with these parameter types, behind `n` parentheses and question
marks. -/
inductive FunctionTypeBehind (t : SyntaxTree) : Nat → NodeIndex → List NodeIndex → Prop
  | bare {i params ret} : t.construct? i = some (.functionType params ret) →
      FunctionTypeBehind t 0 i params
  | grouped {n i inner params} : t.construct? i = some (.groupedType inner) →
      FunctionTypeBehind t n inner params → FunctionTypeBehind t (n + 1) i params
  | nullable {n i inner params} : t.construct? i = some (.nullableType inner) →
      FunctionTypeBehind t n inner params → FunctionTypeBehind t (n + 1) i params

namespace FunctionTypeBehind

theorem lt_size (h : t.FunctionTypeBehind n i params) : i < t.size := by
  cases h with
  | bare hc | grouped hc | nullable hc => exact lt_size_of_construct hc

theorem unique (h : t.FunctionTypeBehind m i params) (h' : t.FunctionTypeBehind n i params') :
    m = n := by
  induction h generalizing n with
  | bare hc => cases h' with
    | bare => rfl
    | grouped hc' | nullable hc' => cases hc.symm.trans hc'
  | grouped hc _ ih => cases h' with
    | grouped hc' h' => cases hc.symm.trans hc'; rw [ih h']
    | bare hc' | nullable hc' => cases hc.symm.trans hc'
  | nullable hc _ ih => cases h' with
    | nullable hc' h' => cases hc.symm.trans hc'; rw [ih h']
    | bare hc' | grouped hc' => cases hc.symm.trans hc'

/-- On the way in there is a node behind every smaller number of parentheses and question marks. -/
theorem exists_inner (h : t.FunctionTypeBehind n i params) (hm : m ≤ n) :
    ∃ j, t.FunctionTypeBehind m j params := by
  induction h with
  | bare hc =>
    obtain rfl : m = 0 := Nat.le_zero.1 hm
    exact ⟨_, .bare hc⟩
  | grouped hc h ih =>
    rcases Nat.le_or_eq_of_le_succ hm with hm | rfl
    · exact ih hm
    · exact ⟨_, .grouped hc h⟩
  | nullable hc h ih =>
    rcases Nat.le_or_eq_of_le_succ hm with hm | rfl
    · exact ih hm
    · exact ⟨_, .nullable hc h⟩

/-- The way in has no more steps than the tree has nodes, since each of its nodes is another one. -/
theorem depth_lt_size (h : t.FunctionTypeBehind n i params) : n < t.size := by
  let level (n : Nat) (j : NodeIndex) : Prop := t.FunctionTypeBehind n j params
  have inside : ∀ {n j}, level n j → j < t.size := fun h => h.lt_size
  have unique : ∀ {m n j}, level m j → level n j → m = n := fun h h' => h.unique h'
  exact le_size_of_levels inside unique fun m hm => h.exists_inner (Nat.le_of_lt_succ hm)

theorem functionParams? (h : t.FunctionTypeBehind n i params) (hm : n < m) :
    t.functionParams? m i = some params := by
  induction h generalizing m with
  | bare hc =>
    obtain ⟨m, rfl⟩ := Nat.exists_eq_add_one_of_ne_zero (Nat.ne_of_gt hm)
    rw [SyntaxTree.functionParams?, hc]
  | grouped hc _ ih | nullable hc _ ih =>
    obtain ⟨m, rfl⟩ := Nat.exists_eq_add_one_of_ne_zero (Nat.ne_of_gt (Nat.zero_lt_of_lt hm))
    rw [SyntaxTree.functionParams?, hc]
    exact ih (Nat.lt_of_succ_lt_succ hm)

end FunctionTypeBehind

/-! ## Numbered names -/

/-- The names for the parameters whose types suggest `name`. -/
def labels (names : List String) (name : String) : List String :=
  if names.count name = 1 then [name]
  else (List.range (names.count name)).map fun k => name ++ toString (k + 1)

theorem getElem?_numbered (h : names[i]? = some a) : (numbered names)[i]? =
    some (if names.count a = 1 then a else a ++ toString ((names.take i).count a + 1)) := by
  simp only [numbered, List.getElem?_map, List.getElem?_zipIdx, h, Nat.zero_add, Option.map_some]

theorem getElem?_of_numbered (h : (numbered names)[i]? = some x) : ∃ a, names[i]? = some a := by
  simp only [numbered, List.getElem?_map, List.getElem?_zipIdx, Option.map_eq_some_iff] at h
  obtain ⟨_, ⟨a, ha, -⟩, -⟩ := h
  exact ⟨a, ha⟩

/-- A name counts at its own position. -/
theorem count_take_lt (h : names[i]? = some a) (hij : i < j) :
    (names.take i).count a < (names.take j).count a := by
  have here : (names.take (i + 1)).count a = (names.take i).count a + 1 := by
    rw [List.take_add_one, h, List.count_append, Option.toList_some, List.count_singleton_self]
  have further : (names.take (i + 1)).count a ≤ (names.take j).count a :=
    List.Sublist.count_le _ (List.take_prefix_take_left hij).sublist
  omega

theorem count_take_lt_count (h : names[i]? = some a) : (names.take i).count a < names.count a := by
  have within := count_take_lt h (List.getElem?_eq_some_iff.1 h).1
  rwa [List.take_length] at within

theorem exists_position (names : List String) (a : String) {k : Nat} (hk : k < names.count a) :
    ∃ i : Nat, names[i]? = some a ∧ (names.take i).count a = k := by
  induction names generalizing k with
  | nil => cases hk
  | cons name names ih =>
    by_cases e : name = a
    · subst e
      cases k with
      | zero => exact ⟨0, rfl, rfl⟩
      | succ k =>
        rw [List.count_cons_self] at hk
        obtain ⟨i, hi, count⟩ := ih (Nat.lt_of_succ_lt_succ hk)
        exact ⟨i + 1, hi, by rw [List.take_succ_cons, List.count_cons_self, count]⟩
    · rw [List.count_cons_of_ne e] at hk
      obtain ⟨i, hi, count⟩ := ih hk
      exact ⟨i + 1, hi, by rw [List.take_succ_cons, List.count_cons_of_ne e, count]⟩

theorem append_number_inj {k l : Nat} : a ++ toString k = a ++ toString l ↔ k = l := by
  rw [String.append_right_inj]
  exact Nat.repr_inj

theorem mem_labels (h : names[i]? = some a) (hx : (numbered names)[i]? = some x) :
    x ∈ labels names a := by
  obtain rfl := Option.some.inj ((getElem?_numbered h).symm.trans hx)
  unfold labels
  split
  · exact List.mem_singleton_self a
  · exact List.mem_map.2 ⟨_, List.mem_range.2 (count_take_lt_count h), rfl⟩

theorem exists_of_mem_labels (h : x ∈ labels names a) (ha : a ∈ names) :
    ∃ i : Nat, names[i]? = some a ∧ (numbered names)[i]? = some x := by
  unfold labels at h
  split at h
  · next one =>
    obtain ⟨i, hi⟩ := List.mem_iff_getElem?.1 ha
    exact ⟨i, hi, by rw [getElem?_numbered hi, if_pos one, List.mem_singleton.1 h]⟩
  · next several =>
    obtain ⟨k, hk, rfl⟩ := List.mem_map.1 h
    obtain ⟨i, hi, count⟩ := exists_position names a (List.mem_range.1 hk)
    exact ⟨i, hi, by rw [getElem?_numbered hi, if_neg several, count]⟩

/-- The numbers tell the parameters of one name apart, so a name is given twice only if it is a label
of two different ones. -/
theorem nodup_numbered_iff (names : List String) : (numbered names).Nodup ↔
    ∀ a ∈ names, ∀ b ∈ names, a ≠ b → (labels names a).Disjoint (labels names b) := by
  rw [List.nodup_iff_getElem?_ne_getElem?]
  constructor
  · intro distinct a ha b hb hab x hxa hxb
    obtain ⟨i, hi, hx⟩ := exists_of_mem_labels hxa ha
    obtain ⟨j, hj, hy⟩ := exists_of_mem_labels hxb hb
    have inside {i : Nat} (h : (numbered names)[i]? = some x) : i < (numbered names).length :=
      (List.getElem?_eq_some_iff.1 h).1
    rcases Nat.lt_trichotomy i j with h | rfl | h
    · exact distinct i j h (inside hy) (hx.trans hy.symm)
    · exact hab (Option.some.inj (hi.symm.trans hj))
    · exact distinct j i h (inside hx) (hy.trans hx.symm)
  · intro apart i j hij hj same
    have hy := List.getElem?_eq_getElem hj
    have hx := same.trans hy
    obtain ⟨a, ha⟩ := getElem?_of_numbered hx
    obtain ⟨b, hb⟩ := getElem?_of_numbered hy
    by_cases e : a = b
    · subst e
      have before := count_take_lt ha hij
      have within := count_take_lt_count hb
      rw [getElem?_numbered ha, getElem?_numbered hb, if_neg (by omega), if_neg (by omega)] at same
      have number := append_number_inj.1 (Option.some.inj same)
      omega
    · exact apart a (List.mem_of_getElem? ha) b (List.mem_of_getElem? hb) e (mem_labels ha hx)
        (mem_labels hb hy)

/-- The label of a name is the name, or the name with digits behind it. -/
theorem exists_digits_of_mem_labels (h : x ∈ labels names a) :
    ∃ digits, x.toList = a.toList ++ digits ∧ ∀ c ∈ digits, c.isDigit = true := by
  unfold labels at h
  split at h
  · rw [List.mem_singleton.1 h]
    exact ⟨[], (List.append_nil _).symm, fun c hc => nomatch hc⟩
  · obtain ⟨k, -, rfl⟩ := List.mem_map.1 h
    exact ⟨_, String.toList_append, fun c hc => Text.isDigit_of_mem_number hc⟩

/-- Of two names with a common label one is the other with digits behind it. -/
theorem nodup_numbered (h : ∀ a ∈ names, ∀ c ∈ a.toList.getLast?, c.isDigit = false) :
    (numbered names).Nodup := by
  have longer {a b : String} {digits : List Char} (hb : b ∈ names)
      (hd : ∀ c ∈ digits, c.isDigit = true) (e : b.toList = a.toList ++ digits) : a = b := by
    rcases List.eq_nil_or_concat digits with rfl | ⟨front, c, rfl⟩
    · exact String.toList_inj.1 (by rw [e, List.append_nil])
    · have last := h b hb c (by rw [e, List.concat_eq_append, ← List.append_assoc]; simp)
      rw [hd c (by simp)] at last
      cases last
  refine (nodup_numbered_iff names).2 fun a ha b hb hab x hxa hxb => hab ?_
  obtain ⟨digits, e, hd⟩ := exists_digits_of_mem_labels hxa
  obtain ⟨digits', e', hd'⟩ := exists_digits_of_mem_labels hxb
  rcases List.append_eq_append_iff.1 (e.symm.trans e') with ⟨d, hb', rfl⟩ | ⟨d, ha', rfl⟩
  · exact longer hb (fun c hc => hd c (List.mem_append_left _ hc)) hb'
  · exact (longer ha (fun c hc => hd' c (List.mem_append_left _ hc)) ha').symm

/-! ## Lambdas -/

/-- What the types of the parameters suggest as names. -/
def suggestedNames (t : SyntaxTree) (params : List NodeIndex) : List String :=
  params.map (t.suggestedName (t.size + 1))

/-- A lambda is suggested for a function type behind any parentheses and question marks, with one
name for each parameter. The names are distinct exactly if no two different names that the types of
the parameters suggest have a label in common. -/
theorem lambdaParameterNames_distinct (h : t.FunctionTypeBehind n i params) :
    ∃ names, t.lambdaParameterNames i = some names ∧ names.length = params.length ∧
      (names.Nodup ↔
        ∀ a ∈ t.suggestedNames params, ∀ b ∈ t.suggestedNames params, a ≠ b →
          (labels (t.suggestedNames params) a).Disjoint (labels (t.suggestedNames params) b)) := by
  refine ⟨numbered (t.suggestedNames params), ?_, ?_, nodup_numbered_iff _⟩
  · rw [lambdaParameterNames, h.functionParams? (Nat.lt_succ_of_lt h.depth_lt_size), Option.map_some,
      suggestedNames]
  · rw [numbered, List.length_map, List.length_zipIdx, suggestedNames, List.length_map]

/-- A property whose type is a function of parameters of the named types, or `null`. -/
def lambdaTree (types : List String) : SyntaxTree :=
  let function := types.length + 1
  let nodes : List Node :=
    types.map (fun name => ⟨.declaredType none name [], .nowhere, some function⟩) ++
      [⟨.declaredType none "Boolean" [], .nowhere, some function⟩,
        ⟨.functionType (List.range types.length) types.length, .nowhere, some (function + 1)⟩,
        ⟨.nullableType function, .nowhere, some (function + 2)⟩,
        ⟨.property { name := "f", type := some (function + 1) }, .nowhere, some (function + 3)⟩,
        ⟨.module { members := [function + 2] }, .nowhere, none⟩]
  ⟨"file:///lambda.pkl", 1, nodes.toArray, function + 3⟩

theorem functionTypeBehind_lambdaTree (x y z : String) :
    (lambdaTree [x, y, z]).FunctionTypeBehind 1 5 [0, 1, 2] := by
  have function : (lambdaTree [x, y, z]).construct? 4 = some (.functionType [0, 1, 2] 3) := rfl
  have wrapped : (lambdaTree [x, y, z]).construct? 5 = some (.nullableType 4) := rfl
  exact .nullable wrapped (.bare function)

theorem lambdaParameterNames_distinct_strings :
    (lambdaTree ["String", "String", "Int8"]).FunctionTypeBehind 1 5 [0, 1, 2] ∧
      (lambdaTree ["String", "String", "Int8"]).lambdaParameterNames 5 =
        some ["string1", "string2", "int8"] ∧ ["string1", "string2", "int8"].Nodup := by
  have h := functionTypeBehind_lambdaTree "String" "String" "Int8"
  obtain ⟨names, hn, -, distinct⟩ := lambdaParameterNames_distinct h
  have suggested : (lambdaTree ["String", "String", "Int8"]).suggestedNames [0, 1, 2] =
      ["string", "string", "int8"] := by
    decide +kernel
  have here : (lambdaTree ["String", "String", "Int8"]).lambdaParameterNames 5 =
      some ["string1", "string2", "int8"] := by decide +kernel
  obtain rfl := Option.some.inj (here.symm.trans hn)
  have apart : ∀ a ∈ ["string", "string", "int8"], ∀ b ∈ ["string", "string", "int8"], a ≠ b →
      ∀ x ∈ labels ["string", "string", "int8"] a, x ∉ labels ["string", "string", "int8"] b := by
    decide +kernel
  rw [suggested] at distinct
  exact ⟨h, here, distinct.2 fun a ha b hb hab x => apart a ha b hb hab x⟩

/-- The first of two parameters of the type `String` gets the name of the one of the type
`String1`. -/
theorem not_nodup_lambdaParameterNames :
    (lambdaTree ["String", "String", "String1"]).FunctionTypeBehind 1 5 [0, 1, 2] ∧
      (lambdaTree ["String", "String", "String1"]).lambdaParameterNames 5 =
        some ["string1", "string2", "string1"] ∧
      ¬ ["string1", "string2", "string1"].Nodup :=
  ⟨functionTypeBehind_lambdaTree _ _ _, by decide +kernel, by decide⟩

end SyntaxTree

end PklAnalysis
