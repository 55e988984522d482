import PklAnalysis.Proofs.Project.Folding
import PklAnalysis.Proofs.Project.Package

/-!
# Where references lead

Every reference leads to an address in canonical form (`canonical_of_resolveReference`), and such an
address is a reference that leads to itself, wherever it is written
(`Canonical.resolveReference`). So resolving once is enough (`resolveReference_canonical`).

A reference into a package stays in the package. One into a directory stays in the directory as long
as its path is relative and does not climb out of itself (`resolveReference_inside`); otherwise it
can lead anywhere (`resolveReference_outside`).
-/

namespace PklAnalysis

namespace Address

open Text

variable {project : Option Project} {source target c : String}

/-! ## Reading references -/

/-- One of the beginnings that decide how a reference is read. -/
def isReserved (cs : List Char) : Bool :=
  ["pkl:", "@", fileScheme, "file:/", Package.scheme].any fun part => (dropStart? part cs).isSome

theorem resolveReference_standard (h : (dropStart? "pkl:" target.toList).isSome = true) :
    resolveReference project source target = .ok target := if_pos h

theorem resolveReference_dependency {reference : List Char}
    (h : target.toList = '@' :: reference) :
    resolveReference project source target = resolveDependency project reference := by
  have standard : dropStart? "pkl:" target.toList = none := by rw [h]; rfl
  have dependency : dropStart? "@" target.toList = some reference := by
    rw [h]
    exact dropStart?_append "@" reference
  unfold resolveReference
  simp only [standard, dependency, Option.isSome_none, Bool.false_eq_true, if_false]

theorem resolveReference_file {path : List Char} (h : target.toList = fileScheme.toList ++ path) :
    resolveReference project source target = match filePath? target.toList with
      | some path => file path [] target
      | none => .error (.malformed target) := by
  have standard : dropStart? "pkl:" target.toList = none := by rw [h]; rfl
  have dependency : dropStart? "@" target.toList = none := by rw [h]; rfl
  have scheme : dropStart? fileScheme target.toList = some path := by
    rw [h]
    exact dropStart?_append _ _
  unfold resolveReference
  cases read : filePath? target.toList <;>
    simp only [read, standard, dependency, scheme, Option.isSome_none, Option.isSome_some,
      Bool.false_eq_true, Bool.true_or, if_true, if_false]

theorem resolveReference_package {rest : List Char}
    (h : target.toList = Package.scheme.toList ++ rest) :
    resolveReference project source target = match package? target.toList with
      | some (p, path) => inPackage p [] path target
      | none => .error (.malformed target) := by
  have standard : dropStart? "pkl:" target.toList = none := by rw [h]; rfl
  have dependency : dropStart? "@" target.toList = none := by rw [h]; rfl
  have file : dropStart? fileScheme target.toList = none := by rw [h]; rfl
  have path : dropStart? "file:/" target.toList = none := by rw [h]; rfl
  have scheme : dropStart? Package.scheme target.toList = some rest := by
    rw [h]
    exact dropStart?_append _ _
  unfold resolveReference
  cases read : package? target.toList <;>
    simp only [read, standard, dependency, file, path, scheme, Option.isSome_none, Option.isSome_some,
      Bool.or_self, Bool.false_eq_true, if_true, if_false]

theorem resolveReference_other (h : isReserved target.toList = false)
    (scheme : hasScheme target.toList = true) :
    resolveReference project source target = .ok target := by
  simp only [isReserved, List.any_cons, List.any_nil, Bool.or_eq_false_iff] at h
  obtain ⟨standard, dependency, file, path, package, -⟩ := h
  unfold resolveReference
  simp only [Option.isSome_eq_false_iff, Option.isNone_iff_eq_none] at standard dependency
  simp only [standard, dependency, file, path, package, scheme, Option.isSome_none, Bool.or_self,
    Bool.false_eq_true, if_true, if_false]

/-! ## Canonical addresses -/

/-- The addresses that references lead to. -/
inductive Canonical : String → Prop
  | standard {c : String} : (dropStart? "pkl:" c.toList).isSome = true → Canonical c
  | file {path : List Char} : Folded path → Canonical (fileScheme ++ String.ofList path)
  | package {p : Package} {path : List Char} :
      p.Addressed → Folded path → Canonical (p.moduleUri (String.ofList path))
  | other {c : String} : isReserved c.toList = false → hasScheme c.toList = true → Canonical c

theorem toList_file (path : List Char) :
    (fileScheme ++ String.ofList path).toList = fileScheme.toList ++ path := by simp

theorem toList_moduleUri (p : Package) (path : String) :
    ∃ rest, (p.moduleUri path).toList = Package.scheme.toList ++ rest :=
  ⟨_, by simp [Package.moduleUri, Package.uri]; rfl⟩

theorem filePath?_file {path : List Char} (h : Folded path) :
    filePath? (fileScheme.toList ++ path) = some path := by
  obtain ⟨segments, -, rfl⟩ := h
  unfold filePath?
  rw [dropStart?_append]
  rfl

/-- The first segment of a folded path is not empty, so the path has only one slash in front. -/
theorem dropWhile_folded {path : List Char} (h : Folded path) :
    '/' :: path.dropWhile (· == '/') = path := by
  obtain ⟨segments, hs, rfl⟩ := h
  cases segments with
  | nil => rfl
  | cons s segments =>
    obtain ⟨empty, -, -, slash⟩ := hs s List.mem_cons_self
    cases s with
    | nil => exact absurd rfl empty
    | cons a s =>
      have first : ∃ rest, pathOf ((a :: s) :: segments) = '/' :: a :: rest := by
        cases segments with
        | nil => exact ⟨s, rfl⟩
        | cons t segments => exact ⟨s ++ '/' :: Text.join '/' (t :: segments), rfl⟩
      obtain ⟨rest, e⟩ := first
      have other : (a == '/') = false :=
        beq_eq_false_iff_ne.2 (fun e => slash (e ▸ List.mem_cons_self))
      rw [e, List.dropWhile_cons_of_pos (by rfl), List.dropWhile_cons, other]
      rfl

/-- What is canonical leads to itself. -/
theorem Canonical.resolveReference (h : Canonical c) (project : Option Project) (source : String) :
    PklAnalysis.resolveReference project source c = .ok c := by
  cases h with
  | standard h => exact resolveReference_standard h
  | @file path h =>
    rw [resolveReference_file (toList_file path), toList_file, filePath?_file h]
    show Address.file path [] _ = _
    rw [Address.file, foldPath_folded_nil h]
  | @package p path hp h =>
    obtain ⟨rest, e⟩ := toList_moduleUri p (String.ofList path)
    rw [resolveReference_package e, package?_moduleUri hp, String.toList_ofList,
      dropWhile_folded h]
    show inPackage p [] path _ = _
    rw [inPackage, foldPath_folded h]
  | other hr hs => exact resolveReference_other hr hs

/-! ## What is reached -/

theorem canonical_of_file {dir path : List Char} (h : file dir path target = .ok c) :
    Canonical c := by
  unfold file at h
  split at h
  · next hf => cases h; exact .file (folded_of_foldPath hf)
  · cases h

theorem canonical_of_inPackage {p : Package} (hp : p.Addressed) {dir path : List Char}
    (h : inPackage p dir path target = .ok c) : Canonical c := by
  unfold inPackage at h
  split at h
  · next hf => cases h; exact .package hp (folded_of_foldPath hf)
  · cases h

theorem canonical_of_resolvePath (h : resolvePath source target = .ok c) : Canonical c := by
  unfold resolvePath at h
  split at h
  · exact canonical_of_file h
  split at h
  · split at h
    · next hp => exact canonical_of_inPackage (addressed_of_package? hp) h
    · cases h
  · cases h

theorem canonical_of_resolveDependency (hp : ∀ p ∈ project, p.Addressed) {reference : List Char}
    (h : resolveDependency project reference = .ok c) : Canonical c := by
  unfold resolveDependency at h
  dsimp only at h
  split at h
  · cases h
  · next p _ hd =>
    obtain ⟨owner, ho, hd⟩ := Option.bind_eq_some_iff.1 hd
    exact canonical_of_inPackage ((hp owner ho).dependency hd) h
  · exact canonical_of_file h

theorem canonical_of_resolveReference (hp : ∀ p ∈ project, p.Addressed)
    (h : resolveReference project source target = .ok c) : Canonical c := by
  unfold resolveReference at h
  dsimp only at h
  split at h
  · next standard => cases h; exact .standard standard
  next standard =>
  split at h
  · exact canonical_of_resolveDependency hp h
  next dependency =>
  split at h
  · split at h
    · exact canonical_of_file h
    · cases h
  next file =>
  split at h
  · split at h
    · next hq => exact canonical_of_inPackage (addressed_of_package? hq) h
    · cases h
  next package =>
  split at h
  · next scheme =>
    cases h
    refine .other ?_ scheme
    rw [Bool.or_eq_true, not_or] at file
    simp [isReserved, standard, dependency, file.1, file.2, package]
  · exact canonical_of_resolvePath h

end Address

open Address

/-- Where a reference leads is where it leads from there on, in any module of any project. The
packages of the project are those of addresses, as in every project that is loaded
(`Project.addressed_of_load`). -/
theorem resolveReference_canonical {project : Option Project} {source target c : String}
    (hp : ∀ p ∈ project, p.Addressed) (h : resolveReference project source target = .ok c)
    (project' : Option Project) (source' : String) : resolveReference project' source' c = .ok c :=
  (canonical_of_resolveReference hp h).resolveReference project' source'

/-! ## Dependencies -/

/-- The project of the examples: a package and a directory next to it. -/
def workshop : Project :=
  ⟨⟨"/work/app"⟩, [("lib", .package ⟨"example.com/lib", ⟨1, 4, 2⟩⟩ none),
    ("shared", .directory ⟨"/work/./shared/"⟩)]⟩

theorem workshop_addressed : workshop.Addressed := by
  intro d hd
  rcases List.mem_cons.1 hd with rfl | hd
  · exact ⟨"package://example.com/lib@1.4.2", by decide⟩
  · rw [List.mem_singleton.1 hd]; trivial

theorem resolveReference_canonical_lib :
    resolveReference (some workshop) "file:///work/app/main.pkl" "@lib/./types/Foo.pkl" =
        .ok "package://example.com/lib@1.4.2#/types/Foo.pkl" ∧
      resolveReference none "pkl:base" "package://example.com/lib@1.4.2#/types/Foo.pkl" =
        .ok "package://example.com/lib@1.4.2#/types/Foo.pkl" := by
  have h : resolveReference (some workshop) "file:///work/app/main.pkl" "@lib/./types/Foo.pkl" =
      .ok "package://example.com/lib@1.4.2#/types/Foo.pkl" := by decide
  exact ⟨h, resolveReference_canonical
    (fun p hp => Option.some.inj hp ▸ workshop_addressed) h none "pkl:base"⟩

/-- Where a path in a dependency leads: to a module of the package, or to a file, which lies inside
the directory if the path is relative and does not climb out of itself. -/
theorem resolveReference_inside {project : Project} {source name path c : String}
    {d : DependencyTarget} (hd : project.dependency? name = some d) (hn : '/' ∉ name.toList)
    (h : resolveReference (some project) source ("@" ++ name ++ "/" ++ path) = .ok c) :
    match d with
    | .package p _ => ∃ inner, Folded inner ∧ c = p.moduleUri (String.ofList inner)
    | .directory dir => ∃ file, Folded file ∧ c = fileScheme ++ String.ofList file ∧
        (path.toList.head? ≠ some '/' → (fold [] (Text.split '/' path.toList)).isSome = true →
          ∃ folded, foldPath [] (ofPath dir) = some folded ∧ Inside folded file) := by
  have text : ("@" ++ name ++ "/" ++ path).toList = '@' :: (name.toList ++ '/' :: path.toList) := by
    simp
  rw [resolveReference_dependency text] at h
  unfold resolveDependency at h
  rw [Text.cut_append _ hn, Option.getD_some] at h
  dsimp only at h
  rw [String.ofList_toList, Option.bind_some, hd] at h
  cases d with
  | package p sha256 =>
    dsimp only [inPackage] at h
    split at h
    · next inner hf => cases h; exact ⟨inner, folded_of_foldPath hf, rfl⟩
    · cases h
  | directory dir =>
    dsimp only [file] at h
    split at h
    · next inner hf =>
      cases h
      exact ⟨inner, folded_of_foldPath hf, rfl, inside_of_foldPath hf⟩
    · cases h

theorem resolveReference_inside_shared :
    resolveReference (some workshop) "pkl:base" "@shared/a/../util.pkl" =
        .ok "file:///work/shared/util.pkl" ∧
      ∃ folded, foldPath [] (ofPath ⟨"/work/./shared/"⟩) = some folded ∧
        Inside folded "/work/shared/util.pkl".toList := by
  have h : resolveReference (some workshop) "pkl:base"
      ("@" ++ "shared" ++ "/" ++ "a/../util.pkl") = .ok "file:///work/shared/util.pkl" := by decide
  obtain ⟨file, -, e, inside⟩ := resolveReference_inside
    (d := .directory ⟨"/work/./shared/"⟩) (by decide) (by decide) h
  have e : fileScheme.toList ++ "/work/shared/util.pkl".toList = fileScheme.toList ++ file := by
    rw [← toList_file file, ← e]
    decide
  obtain rfl := List.append_cancel_left e
  exact ⟨h, inside (by decide) (by decide)⟩

/-- A path that climbs out of itself leads out of the directory, and one that starts with a slash
replaces it. -/
theorem resolveReference_outside : ∃ file replaced : List Char,
    resolveReference (some workshop) "pkl:base" "@shared/../secret.pkl" =
      .ok (fileScheme ++ String.ofList file) ∧
    resolveReference (some workshop) "pkl:base" "@shared//etc/passwd" =
      .ok (fileScheme ++ String.ofList replaced) ∧
    ∃ folded, foldPath [] (ofPath ⟨"/work/./shared/"⟩) = some folded ∧
      ¬ Inside folded file ∧ ¬ Inside folded replaced :=
  ⟨"/work/secret.pkl".toList, "/etc/passwd".toList, by decide, by decide, "/work/shared".toList,
    by decide, fun h => absurd h.isPrefix (by decide), fun h => absurd h.isPrefix (by decide)⟩

end PklAnalysis
