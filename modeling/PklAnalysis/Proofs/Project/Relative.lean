import PklAnalysis.Proofs.Project.Resolution

/-!
# Relative references

A relative reference leads on from the directory of the module in which it is written
(`IsRelative.resolveReference`). References compose: what a second one leads to from the module that
the first one leads to, both lead to together from where the first one is written, once the name at
the end of the first is replaced by the second (`resolveReference_seam`).

The first path is folded and written out, and its directory is read again before the second path is
folded. `foldPath_seam` says that this is the same as folding both at once: the fold of the first
ends in its name, so the directory that is read again has the segments that were there before it.
-/

namespace PklAnalysis

namespace Address

variable {stack segments : List (List Char)} {base dir name path result : List Char}
  {target c u : String}

/-! ## Directories and names -/

/-- Nothing, or a path with a slash at its end. -/
def IsDirectory (dir : List Char) : Prop := ∀ c ∈ dir.getLast?, c = '/'

theorem isDirectory_iff : IsDirectory dir ↔ dir = [] ∨ ∃ a, dir = a ++ ['/'] := by
  constructor
  · intro h
    rcases List.eq_nil_or_concat dir with rfl | ⟨a, c, rfl⟩
    · exact .inl rfl
    · refine .inr ⟨a, ?_⟩
      rw [List.concat_eq_append, h c (by simp)]
  · rintro (rfl | ⟨a, rfl⟩) c hc
    · cases hc
    · simpa using hc.symm

theorem directory_append (hd : IsDirectory dir) (hn : '/' ∉ name) : directory (dir ++ name) = dir := by
  unfold directory
  rcases isDirectory_iff.1 hd with rfl | ⟨a, rfl⟩
  · rw [List.nil_append, Text.cutLast_eq_none.2 hn]
  · rw [List.append_assoc, List.singleton_append, Text.cutLast_eq_some.2 ⟨rfl, hn⟩]

/-- The slash at the end of a directory adds nothing to what is folded. -/
theorem fold_split_append (hd : IsDirectory dir) (path : List Char) :
    fold stack (Text.split '/' (dir ++ path)) =
      (fold stack (Text.split '/' dir)).bind fun kept => fold kept.reverse (Text.split '/' path) := by
  have idle (stack : List (List Char)) : fold stack (Text.split '/' []) = some stack.reverse := by
    rw [show Text.split '/' [] = [[]] from rfl, fold_cons, if_pos (.inl rfl), fold_nil]
  rcases isDirectory_iff.1 hd with rfl | ⟨a, rfl⟩
  · rw [idle, Option.bind_some, List.reverse_reverse, List.nil_append]
  · have whole : fold stack (Text.split '/' (a ++ ['/'])) = fold stack (Text.split '/' a) := by
      rw [Text.split_append_cons, fold_append]
      cases fold stack (Text.split '/' a) with
      | none => rfl
      | some kept => rw [Option.bind_some, idle, List.reverse_reverse]
    rw [whole, List.append_assoc, List.singleton_append, Text.split_append_cons, fold_append]

/-- The last segment of a path stands behind a directory. -/
theorem exists_directory (segments : List (List Char)) (name : List Char) :
    ∃ a, pathOf (segments ++ [name]) = (a ++ ['/']) ++ name := by
  induction segments with
  | nil => exact ⟨[], rfl⟩
  | cons s segments ih =>
    obtain ⟨a, ih⟩ := ih
    have behind : pathOf (s :: segments ++ [name]) = '/' :: s ++ pathOf (segments ++ [name]) := by
      cases segments <;> rfl
    exact ⟨'/' :: s ++ a, by rw [behind, ih]; simp⟩

/-- The directory of a folded path reads back as the segments in front of the last one. -/
theorem fold_directory (h : ∀ s ∈ segments ++ [name], Plain s) :
    fold [] (Text.split '/' (directory (pathOf (segments ++ [name])))) = some segments := by
  obtain ⟨a, e⟩ := exists_directory segments name
  have plain := h name (List.mem_append_right _ List.mem_cons_self)
  have hd : IsDirectory (a ++ ['/']) := isDirectory_iff.2 (.inr ⟨a, rfl⟩)
  have whole : fold [] (Text.split '/' (pathOf (segments ++ [name]))) = some (segments ++ [name]) :=
    fold_split_pathOf h
  rw [e, fold_split_append hd, Text.split_of_notMem plain.2.2.2] at whole
  obtain ⟨above, ha, hn⟩ := Option.bind_eq_some_iff.1 whole
  have last : fold above.reverse [name] = some (above ++ [name]) := by
    rw [fold_plain (fun s hs => List.mem_singleton.1 hs ▸ plain), List.reverse_reverse]
  rw [e, directory_append hd plain.2.2.2, ha]
  exact congrArg some (List.append_cancel_right (Option.some.inj (last.symm.trans hn)))

/-! ## Composing paths -/

theorem foldPath_relative (relative : path.head? ≠ some '/') :
    foldPath base path =
      ((fold [] (Text.split '/' base)).bind fun kept => fold kept.reverse (Text.split '/' path)).map
        pathOf := by
  unfold foldPath
  dsimp only
  rw [if_neg relative, fold_append]
  rfl

/-- What leads on from the directory of a folded path leads on from where that path began. -/
theorem foldPath_seam (hd : IsDirectory dir) (plain : Plain name)
    (first : (dir ++ name).head? ≠ some '/') (second : path.head? ≠ some '/')
    (both : (dir ++ path).head? ≠ some '/') (h : foldPath base (dir ++ name) = some result) :
    foldPath (directory result) path = foldPath base (dir ++ path) := by
  rw [foldPath_relative first] at h
  obtain ⟨segments, folded, rfl⟩ := Option.map_eq_some_iff.1 h
  obtain ⟨start, hs, folded⟩ := Option.bind_eq_some_iff.1 folded
  rw [fold_split_append hd] at folded
  obtain ⟨above, ha, folded⟩ := Option.bind_eq_some_iff.1 folded
  rw [Text.split_of_notMem plain.2.2.2,
    fold_plain (fun s hm => List.mem_singleton.1 hm ▸ plain), List.reverse_reverse] at folded
  obtain rfl := Option.some.inj folded
  have plainStart : ∀ s ∈ start, Plain s :=
    plain_of_fold (fun _ hm => absurd hm List.not_mem_nil)
      (fun _ hx => Text.notMem_of_mem_split hx) hs
  have plainAbove : ∀ s ∈ above, Plain s :=
    plain_of_fold (fun s hm => plainStart s (List.mem_reverse.1 hm))
      (fun _ hx => Text.notMem_of_mem_split hx) ha
  have all : ∀ s ∈ above ++ [name], Plain s := by
    intro s hm
    rcases List.mem_append.1 hm with hm | hm
    · exact plainAbove s hm
    · exact List.mem_singleton.1 hm ▸ plain
  rw [foldPath_relative second, foldPath_relative both, fold_directory all, hs, Option.bind_some,
    Option.bind_some, fold_split_append hd, ha, Option.bind_some]

/-! ## Relative references -/

/-- A reference that leads on from the module in which it is written: it starts with neither a slash
nor an `@` and is not an address. -/
structure IsRelative (reference : String) : Prop where
  slash : reference.toList.head? ≠ some '/'
  dependency : reference.toList.head? ≠ some '@'
  scheme : hasScheme reference.toList = false

theorem hasScheme_iff {cs : List Char} : hasScheme cs = true ↔
    ∃ scheme rest, cs = scheme ++ ':' :: rest ∧ scheme ≠ [] ∧ ∀ c ∈ scheme, isSchemeChar c = true := by
  have colon {scheme : List Char} (h : ∀ c ∈ scheme, isSchemeChar c = true) : ':' ∉ scheme :=
    fun hm => absurd (h _ hm) (by decide)
  unfold hasScheme
  constructor
  · intro h
    cases hc : Text.cut ':' cs with
    | none => rw [hc] at h; cases h
    | some parts =>
      rw [hc, Bool.and_eq_true, Bool.not_eq_true', List.isEmpty_eq_false_iff, List.all_eq_true] at h
      exact ⟨parts.1, parts.2, (Text.cut_eq_some.1 hc).1, h⟩
  · rintro ⟨scheme, rest, rfl, empty, chars⟩
    rw [Text.cut_append _ (colon chars), Bool.and_eq_true, Bool.not_eq_true',
      List.isEmpty_eq_false_iff, List.all_eq_true]
    exact ⟨empty, chars⟩

theorem hasScheme_append {a : List Char} (h : hasScheme a = true) (b : List Char) :
    hasScheme (a ++ b) = true := by
  obtain ⟨scheme, rest, rfl, chars⟩ := hasScheme_iff.1 h
  exact hasScheme_iff.2 ⟨scheme, rest ++ b, by simp, chars⟩

/-- Whether a path has a scheme is decided in front of its first slash. -/
theorem hasScheme_slash {a b b' : List Char} (h : hasScheme (a ++ '/' :: b) = true) :
    hasScheme (a ++ '/' :: b') = true := by
  obtain ⟨scheme, rest, e, empty, chars⟩ := hasScheme_iff.1 h
  refine hasScheme_append (hasScheme_iff.2 ?_) _
  rcases List.append_eq_append_iff.1 e with ⟨behind, ha, he⟩ | ⟨behind, ha, he⟩
  · cases behind with
    | nil => cases he
    | cons c behind =>
      obtain ⟨rfl, -⟩ := List.cons.inj he
      exact absurd (chars '/' (by rw [ha]; simp)) (by decide)
  · cases behind with
    | nil => cases he
    | cons c behind =>
      obtain ⟨rfl, -⟩ := List.cons.inj he
      exact ⟨scheme, behind, ha, empty, chars⟩

/-- A relative reference has none of the beginnings that stand for an address. -/
theorem IsRelative.dropStart?_eq_none (h : IsRelative target) (part : String)
    (hp : hasScheme part.toList = true) : Text.dropStart? part target.toList = none := by
  cases hd : Text.dropStart? part target.toList with
  | none => rfl
  | some rest =>
    have scheme := hasScheme_append hp rest
    rw [Text.dropStart?_eq_some.1 hd, h.scheme] at scheme
    cases scheme

theorem IsRelative.resolveReference (h : IsRelative target) (project : Option Project)
    (source : String) :
    PklAnalysis.resolveReference project source target = resolvePath source target := by
  have dependency : Text.dropStart? "@" target.toList = none := by
    cases hd : Text.dropStart? "@" target.toList with
    | none => rfl
    | some rest => exact absurd (by rw [← Text.dropStart?_eq_some.1 hd]; rfl) h.dependency
  unfold PklAnalysis.resolveReference
  simp only [h.dropStart?_eq_none "pkl:" (by decide), dependency,
    h.dropStart?_eq_none fileScheme (by decide), h.dropStart?_eq_none "file:/" (by decide),
    h.dropStart?_eq_none Package.scheme (by decide), h.scheme, Option.isSome_none, Bool.or_self,
    Bool.false_eq_true, if_false]

/-- The name at the end of a relative reference can be replaced by another one. -/
theorem IsRelative.seam {dir name : String} (hd : IsDirectory dir.toList)
    (first : IsRelative (dir ++ name)) (second : IsRelative target) : IsRelative (dir ++ target) := by
  rcases isDirectory_iff.1 hd with empty | ⟨a, e⟩
  · obtain rfl : dir = "" := String.toList_inj.1 empty
    rwa [String.empty_append]
  obtain ⟨slash, dependency, scheme⟩ := first
  rw [String.toList_append, e, List.append_assoc, List.singleton_append] at slash dependency scheme
  cases a with
  | nil => exact absurd rfl slash
  | cons c a =>
    refine ⟨?_, ?_, ?_⟩ <;>
      rw [String.toList_append, e, List.append_assoc, List.singleton_append]
    · exact slash
    · exact dependency
    · exact Bool.eq_false_iff.2 fun h => Bool.false_ne_true (scheme.symm.trans (hasScheme_slash h))

/-! ## Composing references -/

/-- Paths in the module at an address lead on from the directory `base`, and `write` gives the
address of a folded path. -/
def LeadsOn (source : String) (base : List Char) (write : List Char → String) : Prop :=
  ∀ target u, resolvePath source target = .ok u ↔
    ∃ path, foldPath base target.toList = some path ∧ write path = u

theorem leadsOn_file {source : String} {path : List Char} (h : filePath? source.toList = some path) :
    LeadsOn source (directory path) (fileScheme ++ String.ofList ·) := by
  intro target u
  unfold resolvePath
  rw [h]
  dsimp only [file]
  cases foldPath (directory path) target.toList <;> simp

theorem leadsOn_package {source : String} {p : Package} {path : List Char}
    (file : filePath? source.toList = none)
    (scheme : (Text.dropStart? Package.scheme source.toList).isSome = true)
    (h : package? source.toList = some (p, path)) :
    LeadsOn source (directory path) fun path => p.moduleUri (String.ofList path) := by
  intro target u
  unfold resolvePath
  rw [file]
  dsimp only
  rw [if_pos scheme, h]
  dsimp only [inPackage]
  cases foldPath (directory path) target.toList <;> simp

/-- Only from files and packages do paths lead on, and where they lead to they lead on again. -/
theorem exists_leadsOn {source : String} (h : resolvePath source target = .ok c) :
    ∃ base write, LeadsOn source base write ∧
      ∀ result, Folded result → LeadsOn (write result) (directory result) write := by
  cases hf : filePath? source.toList with
  | some path =>
    refine ⟨_, _, leadsOn_file hf, fun result folded => leadsOn_file ?_⟩
    rw [toList_file, filePath?_file folded]
  | none =>
    unfold resolvePath at h
    rw [hf] at h
    dsimp only at h
    split at h
    · next scheme =>
      split at h
      · next p path hp =>
        refine ⟨_, _, leadsOn_package hf scheme hp, fun result folded => ?_⟩
        obtain ⟨rest, e⟩ := toList_moduleUri p (String.ofList result)
        refine leadsOn_package (p := p) ?_ ?_ ?_
        · rw [e]; rfl
        · rw [e, Text.dropStart?_append]; rfl
        · rw [package?_moduleUri (addressed_of_package? hp), String.toList_ofList,
            dropWhile_folded folded]
      · cases h
    · cases h

end Address

open Address

/-- A relative reference `dir ++ name` leads to a module from which another one leads to where the two
lead together, with the name at the end of the first replaced: `dir ++ target`. Both lead there, or
neither leads anywhere. Here `dir` is the part of the reference up to its last slash. -/
theorem resolveReference_seam {project : Option Project} {source dir name target c : String}
    (first : IsRelative (dir ++ name)) (second : IsRelative target)
    (hd : IsDirectory dir.toList) (plain : Plain name.toList)
    (h : resolveReference project source (dir ++ name) = .ok c) (project' : Option Project)
    (u : String) :
    resolveReference project' c target = .ok u ↔
      resolveReference project source (dir ++ target) = .ok u := by
  have both := first.seam hd second
  rw [first.resolveReference] at h
  rw [second.resolveReference, both.resolveReference]
  obtain ⟨base, write, start, further⟩ := exists_leadsOn h
  obtain ⟨result, hr, rfl⟩ := (start _ _).1 h
  have same : foldPath (directory result) target.toList = foldPath base (dir ++ target).toList := by
    rw [String.toList_append] at hr ⊢
    refine foldPath_seam hd plain ?_ second.slash ?_ hr
    · rw [← String.toList_append]; exact first.slash
    · rw [← String.toList_append]; exact both.slash
  rw [start, further result (folded_of_foldPath hr), same]

/-- In a package, whose version is written anew in between. -/
theorem resolveReference_seam_package :
    resolveReference none "package://example.com/lib@01.4.2-rc#/sub/main.pkl"
        ("types/../" ++ "a.pkl") = .ok "package://example.com/lib@1.4.2#/sub/a.pkl" ∧
      resolveReference none "package://example.com/lib@01.4.2-rc#/sub/main.pkl"
        ("types/../" ++ "../util.pkl") = .ok "package://example.com/lib@1.4.2#/util.pkl" ∧
      resolveReference none "package://example.com/lib@1.4.2#/sub/a.pkl" "../util.pkl" =
        .ok "package://example.com/lib@1.4.2#/util.pkl" := by
  have first : resolveReference none "package://example.com/lib@01.4.2-rc#/sub/main.pkl"
      ("types/../" ++ "a.pkl") = .ok "package://example.com/lib@1.4.2#/sub/a.pkl" := by decide
  have both : resolveReference none "package://example.com/lib@01.4.2-rc#/sub/main.pkl"
      ("types/../" ++ "../util.pkl") = .ok "package://example.com/lib@1.4.2#/util.pkl" := by decide
  have directory : IsDirectory "types/../".toList :=
    isDirectory_iff.2 (.inr ⟨"types/..".toList, by decide⟩)
  have name : Plain "a.pkl".toList := ⟨by decide, by decide, by decide, by decide⟩
  have relative : IsRelative ("types/../" ++ "a.pkl") := ⟨by decide, by decide, by decide⟩
  have relative' : IsRelative "../util.pkl" := ⟨by decide, by decide, by decide⟩
  exact ⟨first, both,
    (resolveReference_seam relative relative' directory name first none _).2 both⟩

end PklAnalysis
