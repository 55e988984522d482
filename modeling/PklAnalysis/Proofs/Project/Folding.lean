import PklAnalysis.Project.Resolution
import PklAnalysis.Proofs.Text.Pieces

/-!
# Folded paths

Folding a path leaves segments that it leaves as they are, so a folded path folds to itself from
wherever it is read (`foldPath_folded`). What a relative path leads to from a directory lies inside
the directory as long as the path does not climb out of itself (`inside_of_foldPath`).
-/

namespace PklAnalysis

namespace Address

/-- A segment that folding keeps. -/
def Plain (segment : List Char) : Prop :=
  segment ≠ [] ∧ segment ≠ ['.'] ∧ segment ≠ ['.', '.'] ∧ '/' ∉ segment

/-- The path with some segments, from the root. -/
def pathOf (segments : List (List Char)) : List Char := '/' :: Text.join '/' segments

/-- Nothing is left to fold in the path. -/
def Folded (path : List Char) : Prop :=
  ∃ segments, (∀ s ∈ segments, Plain s) ∧ path = pathOf segments

/-- The folded path is that of the directory, or it lies below it. -/
def Inside (dir path : List Char) : Prop :=
  ∃ segments further, (∀ s ∈ segments ++ further, Plain s) ∧ dir = pathOf segments ∧
    path = pathOf (segments ++ further)

variable {stack segments further rest : List (List Char)} {dir path result : List Char}

/-! ## Folding segments -/

theorem fold_nil (stack : List (List Char)) : fold stack [] = some stack.reverse := by
  rw [fold.eq_def]

theorem fold_cons (stack : List (List Char)) (x : List Char) (xs : List (List Char)) :
    fold stack (x :: xs) =
      if x = [] ∨ x = ['.'] then fold stack xs
      else if x = ['.', '.'] then match stack with
        | [] => none
        | _ :: stack => fold stack xs
      else fold (x :: stack) xs :=
  (fold.eq_def _ _).trans rfl

theorem fold_append (stack xs ys : List (List Char)) :
    fold stack (xs ++ ys) = (fold stack xs).bind fun kept => fold kept.reverse ys := by
  induction xs generalizing stack with
  | nil => rw [List.nil_append, fold_nil, Option.bind_some, List.reverse_reverse]
  | cons x xs ih =>
    rw [List.cons_append, fold_cons, fold_cons]
    split
    · exact ih stack
    split
    · cases stack with
      | nil => rfl
      | cons s stack => exact ih stack
    · exact ih (x :: stack)

theorem fold_plain (h : ∀ s ∈ segments, Plain s) :
    fold stack segments = some (stack.reverse ++ segments) := by
  induction segments generalizing stack with
  | nil => rw [fold_nil, List.append_nil]
  | cons s segments ih =>
    obtain ⟨empty, here, up, -⟩ := h s List.mem_cons_self
    rw [fold_cons, if_neg (not_or.2 ⟨empty, here⟩), if_neg up,
      ih (fun x hx => h x (List.mem_cons_of_mem s hx)), List.reverse_cons, List.append_assoc]
    rfl

theorem plain_of_fold (hs : ∀ s ∈ stack, Plain s) (hx : ∀ x ∈ segments, '/' ∉ x)
    (h : fold stack segments = some rest) : ∀ s ∈ rest, Plain s := by
  induction segments generalizing stack with
  | nil =>
    cases h
    exact fun s hm => hs s (List.mem_reverse.1 hm)
  | cons x segments ih =>
    have hx' : ∀ y ∈ segments, '/' ∉ y := fun y hy => hx y (List.mem_cons_of_mem x hy)
    rw [fold_cons] at h
    split at h
    · exact ih hs hx' h
    next kept =>
    split at h
    · cases stack with
      | nil => cases h
      | cons s stack => exact ih (fun y hy => hs y (List.mem_cons_of_mem s hy)) hx' h
    · next up =>
      refine ih (fun y hy => ?_) hx' h
      rcases List.mem_cons.1 hy with rfl | hy
      · exact ⟨fun e => kept (.inl e), fun e => kept (.inr e), up, hx y List.mem_cons_self⟩
      · exact hs y hy

/-- What is folded without climbing out of itself is folded in the same way behind a directory. -/
theorem fold_behind (below : List (List Char)) (h : fold stack segments = some rest) :
    fold (stack ++ below) segments = some (below.reverse ++ rest) := by
  induction segments generalizing stack with
  | nil => cases h; rw [fold_nil, List.reverse_append]
  | cons x segments ih =>
    rw [fold_cons] at h ⊢
    split at h
    · next hx => rw [if_pos hx]; exact ih h
    next hx =>
    rw [if_neg hx]
    split at h
    · next up =>
      rw [if_pos up]
      cases stack with
      | nil => cases h
      | cons s stack => exact ih h
    · next up => rw [if_neg up]; exact ih h

/-! ## Folding paths -/

/-- Reading a folded path puts its segments behind those that are there. -/
theorem fold_split_pathOf (h : ∀ s ∈ segments, Plain s) :
    fold stack (Text.split '/' (pathOf segments)) = some (stack.reverse ++ segments) := by
  have root : Text.split '/' (pathOf segments) = [] :: Text.split '/' (Text.join '/' segments) := by
    rw [pathOf, Text.split, if_pos rfl]
  rw [root, fold_cons, if_pos (.inl rfl)]
  by_cases hn : segments = []
  · subst hn
    rw [show Text.split '/' (Text.join '/' []) = [[]] from rfl, fold_cons, if_pos (.inl rfl),
      fold_nil, List.append_nil]
  · rw [Text.split_join hn (fun s hs => (h s hs).2.2.2), fold_plain h]

theorem foldPath_eq_some (h : foldPath dir path = some result) : ∃ segments,
    fold [] (Text.split '/' (if path.head? = some '/' then [] else dir) ++ Text.split '/' path) =
      some segments ∧ result = pathOf segments := by
  obtain ⟨segments, hs, e⟩ := Option.map_eq_some_iff.1 h
  exact ⟨segments, hs, e.symm⟩

theorem folded_of_foldPath (h : foldPath dir path = some result) : Folded result := by
  obtain ⟨segments, hs, e⟩ := foldPath_eq_some h
  refine ⟨segments, plain_of_fold (fun _ hm => absurd hm List.not_mem_nil) (fun x hx => ?_) hs, e⟩
  rcases List.mem_append.1 hx with hx | hx <;> exact Text.notMem_of_mem_split hx

theorem foldPath_folded (h : Folded path) : foldPath dir path = some path := by
  obtain ⟨segments, hs, rfl⟩ := h
  unfold foldPath
  dsimp only
  rw [if_pos (show (pathOf segments).head? = some '/' from rfl), fold_append,
    show fold [] (Text.split '/' []) = some [] from rfl, Option.bind_some, fold_split_pathOf hs]
  rfl

/-- A path from which nothing leads on. -/
theorem foldPath_folded_nil (h : Folded dir) : foldPath dir [] = some dir := by
  obtain ⟨segments, hs, rfl⟩ := h
  unfold foldPath
  dsimp only
  rw [if_neg nofun, fold_append, fold_split_pathOf hs, Option.bind_some]
  show some ('/' :: Text.join '/' (([] ++ segments).reverse.reverse)) = _
  rw [List.reverse_reverse, List.nil_append, pathOf]

theorem Inside.isPrefix (h : Inside dir path) : dir <+: path := by
  obtain ⟨segments, further, -, rfl, rfl⟩ := h
  refine List.cons_prefix_cons.2 ⟨rfl, ?_⟩
  induction segments with
  | nil => exact List.nil_prefix
  | cons s segments ih =>
    cases segments with
    | nil =>
      cases further with
      | nil => exact List.prefix_rfl
      | cons t further => exact List.prefix_append s _
    | cons t segments =>
      show s ++ '/' :: Text.join '/' (t :: segments) <+:
        s ++ '/' :: Text.join '/' (t :: segments ++ further)
      exact (List.prefix_append_right_inj s).2 (List.cons_prefix_cons.2 ⟨rfl, ih⟩)

/-- A relative path that does not climb out of itself stays inside the directory. -/
theorem inside_of_foldPath (h : foldPath dir path = some result) (relative : path.head? ≠ some '/')
    (stays : (fold [] (Text.split '/' path)).isSome = true) :
    ∃ folded, foldPath [] dir = some folded ∧ Inside folded result := by
  obtain ⟨segments, hs, rfl⟩ := foldPath_eq_some h
  rw [if_neg relative, fold_append] at hs
  obtain ⟨above, ha, hs⟩ := Option.bind_eq_some_iff.1 hs
  obtain ⟨below, hb⟩ := Option.isSome_iff_exists.1 stays
  have joined := fold_behind above.reverse hb
  rw [List.nil_append, List.reverse_reverse] at joined
  obtain rfl : above ++ below = segments := Option.some.inj (joined.symm.trans hs)
  refine ⟨pathOf above, ?_, above, below, ?_, rfl, rfl⟩
  · unfold foldPath
    dsimp only
    rw [ite_self, fold_append, show fold [] (Text.split '/' []) = some [] from rfl, Option.bind_some,
      List.reverse_nil, ha]
    rfl
  · refine plain_of_fold (fun _ hm => absurd hm List.not_mem_nil) (fun x hx => ?_)
      ((fold_append [] _ _).trans (Option.bind_eq_some_iff.2 ⟨above, ha, hs⟩))
    rcases List.mem_append.1 hx with hx | hx <;> exact Text.notMem_of_mem_split hx

end Address

end PklAnalysis
