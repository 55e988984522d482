import PklAnalysis.Project.Resolution
import PklAnalysis.Proofs.Text.Pieces
import Mathlib.Data.List.TakeWhile

/-!
# Addresses of packages

The address that a package is given reads back as the package, if the package was read from some
address in the first place (`Package.ofUri_uri`), and so does the address of a module inside it
(`Package.ofUri_moduleUri`, with its path `Address.package?_moduleUri`). The packages of a project that
was loaded from its files are of this kind (`Project.addressed_of_load`). Two packages share a lock
if they have the same name and the same major version (`Package.lockKey_eq_iff`).
-/

namespace PklAnalysis

/-! ## Versions -/

namespace Version

theorem number?_text (n : UInt32) : number? (toString n.toNat).toList = some n := by
  have digits : (toString n.toNat).toList = Nat.toDigits 10 n.toNat := by
    rw [Nat.toString_eq_repr, Nat.toList_repr]
  have all : (Nat.toDigits 10 n.toNat).all Char.isDigit = true :=
    List.all_eq_true.2 (fun c hc => Nat.isDigit_of_mem_toDigits (by decide) (by decide) hc)
  have read : (Nat.toDigits 10 n.toNat).foldl (fun n c => 10 * n + (c.toNat - '0'.toNat)) 0 =
      n.toNat := by
    rw [← Nat.ofDigitChars_eq_foldl, Nat.ofDigitChars_ten_toDigits]
  unfold number?
  rw [digits, all, List.isEmpty_eq_false_iff.2 Nat.toDigits_ne_nil, read]
  simp [n.toNat_lt_size]

theorem toList_text (v : Version) : v.text.toList = (toString v.major.toNat).toList ++
    '.' :: ((toString v.minor.toNat).toList ++ '.' :: (toString v.patch.toNat).toList) := by
  simp [text]

theorem mem_text {v : Version} {c : Char} (h : c ∈ v.text.toList) : c.isDigit = true ∨ c = '.' := by
  rw [toList_text] at h
  simp only [List.mem_append, List.mem_cons] at h
  rcases h with h | h | h | h | h
  · exact .inl (Text.isDigit_of_mem_number h)
  · exact .inr h
  · exact .inl (Text.isDigit_of_mem_number h)
  · exact .inr h
  · exact .inl (Text.isDigit_of_mem_number h)

theorem notMem_version {v : Version} {c : Char} (hd : c.isDigit = false) (hc : c ≠ '.') :
    c ∉ v.text.toList := fun h => (mem_text h).elim (fun e => by rw [hd] at e; cases e) hc

/-- A version reads back from its text. -/
theorem ofText?_text (v : Version) : ofText? v.text.toList = some v := by
  have kept : v.text.toList.takeWhile (fun c => c != '-' && c != '+') = v.text.toList := by
    refine List.takeWhile_eq_self_iff.2 (fun c hc => ?_)
    rw [Bool.and_eq_true, bne_iff_ne, bne_iff_ne]
    exact ⟨fun e => notMem_version rfl (by decide) (e ▸ hc),
      fun e => notMem_version rfl (by decide) (e ▸ hc)⟩
  have pieces : Text.split '.' v.text.toList = [(toString v.major.toNat).toList,
      (toString v.minor.toNat).toList, (toString v.patch.toNat).toList] := by
    rw [toList_text, Text.split_append _ (Text.notMem_number rfl),
      Text.split_append _ (Text.notMem_number rfl), Text.split_of_notMem (Text.notMem_number rfl)]
  unfold ofText?
  rw [kept, pieces]
  simp only [List.map_cons, List.map_nil, number?_text]

end Version

/-! ## Packages -/

namespace Package

/-- The package is that of some address. -/
def Addressed (p : Package) : Prop := ∃ uri, ofUri uri = .ok p

variable {p : Package}

theorem toList_uri (p : Package) :
    p.uri.toList = scheme.toList ++ (p.name.toList ++ '@' :: p.version.text.toList) := by
  simp [uri]

/-- The name in an address holds a slash, and nothing behind a `#` belongs to it. -/
theorem name_of_addressed (h : p.Addressed) : '/' ∈ p.name.toList ∧ '#' ∉ p.name.toList := by
  obtain ⟨uri, h⟩ := h
  unfold ofUri at h
  split at h
  · cases h
  next rest _ =>
  have part : '#' ∉ ((Text.cut '#' rest).map (·.1)).getD rest := by
    cases hc : Text.cut '#' rest with
    | none => exact Text.cut_eq_none.1 hc
    | some ab => exact (Text.cut_eq_some.1 hc).2
  dsimp only at h
  split at h
  · cases h
  next name version hcut =>
  obtain ⟨e, -⟩ := Text.cutLast_eq_some.1 hcut
  split at h
  · next slash =>
    split at h
    · cases h
      rw [String.toList_ofList]
      refine ⟨List.contains_iff_mem.1 slash, fun hm => part ?_⟩
      rw [e]
      exact List.mem_append_left _ hm
    · cases h
  · cases h

theorem ofUri_of_address (name : List Char) {rest version : List Char}
    (h : ((Text.cut '#' rest).map (·.1)).getD rest = name ++ '@' :: version) (hv : '@' ∉ version)
    (hn : '/' ∈ name) {v : Version} (read : Version.ofText? version = some v) {uri : String}
    (hu : uri.toList = scheme.toList ++ rest) : ofUri uri = .ok ⟨String.ofList name, v⟩ := by
  unfold ofUri
  rw [hu, Text.dropStart?_append]
  dsimp only
  rw [h, Text.cutLast_eq_some.2 ⟨rfl, hv⟩]
  dsimp only
  rw [if_pos (List.contains_iff_mem.2 hn), read]

/-- The address of a package has no `#`. -/
theorem notMem_address (h : p.Addressed) : '#' ∉ p.name.toList ++ '@' :: p.version.text.toList := by
  rw [List.mem_append, List.mem_cons, not_or, not_or]
  exact ⟨(name_of_addressed h).2, by decide, Version.notMem_version rfl (by decide)⟩

/-- A package reads back from its address. -/
theorem ofUri_uri (h : p.Addressed) : ofUri p.uri = .ok p := by
  refine (ofUri_of_address p.name.toList ?_ (Version.notMem_version rfl (by decide))
    (name_of_addressed h).1 (Version.ofText?_text p.version) (toList_uri p)).trans ?_
  · rw [Text.cut_eq_none.2 (notMem_address h)]
    rfl
  · rw [String.ofList_toList]

theorem toList_moduleAddress (p : Package) (path : String) :
    (p.moduleUri path).toList = scheme.toList ++ ((p.name.toList ++ '@' :: p.version.text.toList) ++
      '#' :: '/' :: path.toList.dropWhile (· == '/')) := by
  simp [moduleUri, uri]

/-- A package reads back from the address of any module in it. -/
theorem ofUri_moduleUri (h : p.Addressed) (path : String) : ofUri (p.moduleUri path) = .ok p := by
  refine (ofUri_of_address p.name.toList ?_ (Version.notMem_version rfl (by decide))
    (name_of_addressed h).1 (Version.ofText?_text p.version)
    (toList_moduleAddress p path)).trans ?_
  · rw [Text.cut_append _ (notMem_address h)]
    rfl
  · rw [String.ofList_toList]

/-! ### Locks -/

theorem toList_lockKey (p : Package) : p.lockKey.toList =
    scheme.toList ++ (p.name.toList ++ '@' :: (toString p.version.major.toNat).toList) := by
  simp [lockKey]

theorem lockKey_eq_iff (p q : Package) :
    p.lockKey = q.lockKey ↔ p.name = q.name ∧ p.version.major = q.version.major := by
  constructor
  · intro h
    -- the major version has no `@`, so the last `@` of a key is the one behind the name
    have parts (r : Package) : Text.cutLast '@'
        (r.name.toList ++ '@' :: (toString r.version.major.toNat).toList) =
          some (r.name.toList, (toString r.version.major.toNat).toList) :=
      Text.cutLast_eq_some.2 ⟨rfl, Text.notMem_number rfl⟩
    have text := congrArg String.toList h
    rw [toList_lockKey, toList_lockKey] at text
    have same := parts p
    rw [List.append_cancel_left text, parts q] at same
    obtain ⟨name, digits⟩ := Prod.mk.inj (Option.some.inj same)
    have major := Version.number?_text p.version.major
    rw [← digits, Version.number?_text] at major
    exact ⟨(String.toList_inj.1 name).symm, (Option.some.inj major).symm⟩
  · rintro ⟨name, major⟩
    rw [lockKey, lockKey, name, major]

/-- The package of an address reads back from the address it is given itself and from those of its
modules, and it shares its lock with the packages of its name and major version. -/
theorem ofUri_roundTrip {address : String} {p : Package} (h : ofUri address = .ok p) :
    ofUri p.uri = .ok p ∧ (∀ path, ofUri (p.moduleUri path) = .ok p) ∧
      ∀ q : Package, p.lockKey = q.lockKey ↔ p.name = q.name ∧ p.version.major = q.version.major :=
  ⟨ofUri_uri ⟨address, h⟩, ofUri_moduleUri ⟨address, h⟩, lockKey_eq_iff p⟩

/-- The name of a package may hold an `@`, and its address a build and zeros in front. -/
theorem ofUri_roundTrip_scoped :
    let p : Package := ⟨"example.com/@team/lib", ⟨1, 2, 3⟩⟩
    ofUri "package://example.com/@team/lib@01.002.3-rc.1+7#/a@b.pkl" = .ok p ∧
      ofUri "package://example.com/@team/lib@1.2.3" = .ok p ∧
      ofUri "package://example.com/@team/lib@1.2.3#/x#y.pkl" = .ok p ∧
      p.lockKey = (⟨"example.com/@team/lib", ⟨1, 9, 0⟩⟩ : Package).lockKey := by
  have h : ofUri "package://example.com/@team/lib@01.002.3-rc.1+7#/a@b.pkl" =
      .ok ⟨"example.com/@team/lib", ⟨1, 2, 3⟩⟩ := by decide
  obtain ⟨read, modules, locks⟩ := ofUri_roundTrip h
  exact ⟨h, read, modules "//x#y.pkl", (locks _).2 ⟨rfl, rfl⟩⟩

end Package

namespace Address

open Package

/-- The address of a module reads back as its package and its path. -/
theorem package?_moduleUri {p : Package} (h : p.Addressed) (path : String) :
    package? (p.moduleUri path).toList = some (p, '/' :: path.toList.dropWhile (· == '/')) := by
  have front : '#' ∉ p.uri.toList := by
    rw [toList_uri, List.mem_append, not_or]
    exact ⟨by decide, notMem_address h⟩
  have text : (p.moduleUri path).toList =
      p.uri.toList ++ '#' :: '/' :: path.toList.dropWhile (· == '/') := by
    simp [moduleUri]
  unfold package?
  rw [text, Text.cut_append _ front, Option.getD_some]
  dsimp only
  rw [String.ofList_toList, ofUri_uri h]
  rfl

theorem addressed_of_package? {uri path : List Char} {p : Package}
    (h : package? uri = some (p, path)) : p.Addressed := by
  unfold package? at h
  generalize (Text.cut '#' uri).getD (uri, ['/']) = parts at h
  obtain ⟨q, hq, e⟩ := Option.map_eq_some_iff.1 h
  cases e
  cases read : ofUri (String.ofList parts.1) with
  | error e => rw [read] at hq; cases hq
  | ok q => rw [read] at hq; cases hq; exact ⟨_, read⟩

end Address

/-! ## Projects -/

/-- A dependency leads to a directory, or to the package of some address. -/
def DependencyTarget.Addressed : DependencyTarget → Prop
  | .package p _ => p.Addressed
  | .directory _ => True

namespace Project

/-- All packages that the project depends on are those of some addresses. -/
def Addressed (project : Project) : Prop := ∀ d ∈ project.dependencies, d.2.Addressed

theorem Addressed.dependency {project : Project} (h : project.Addressed) {name : String}
    {d : DependencyTarget} (hd : project.dependency? name = some d) : d.Addressed := by
  obtain ⟨e, he, rfl⟩ := Option.map_eq_some_iff.1 hd
  exact h e (List.mem_of_find?_eq_some he)

theorem mem_ofDependencies {dir : Path} {dependencies : List (String × DependencyTarget)}
    {e : String × DependencyTarget} (h : e ∈ (ofDependencies dir dependencies).dependencies) :
    e ∈ dependencies := by
  have key : ∀ (ds kept : List (String × DependencyTarget)),
      e ∈ ds.foldl (fun kept d => kept.filter (·.1 != d.1) ++ [d]) kept → e ∈ kept ∨ e ∈ ds := by
    intro ds
    induction ds with
    | nil => exact fun kept h => .inl h
    | cons d ds ih =>
      intro kept h
      rcases ih _ h with h | h
      · rcases List.mem_append.1 h with h | h
        · exact .inl (List.mem_filter.1 h).1
        · exact .inr (List.mem_singleton.1 h ▸ List.mem_cons_self)
      · exact .inr (List.mem_cons_of_mem d h)
  exact (key dependencies [] h).resolve_left List.not_mem_nil

theorem bind_eq_ok {ε α β : Type} {x : Except ε α} {f : α → Except ε β} {b : β}
    (h : x >>= f = .ok b) : ∃ a, x = .ok a ∧ f a = .ok b := by
  cases x with
  | error e => cases h
  | ok a => exact ⟨a, rfl, h⟩

theorem ok_of_mapError {ε ε' α : Type} {x : Except ε α} {f : ε → ε'} {a : α}
    (h : x.mapError f = .ok a) : x = .ok a := by
  cases x with
  | error e => cases h
  | ok b => cases h; rfl

theorem addressed_lockTarget {dir : Path} {lock : Lock} {d : DependencyTarget}
    (h : lock.target dir = .ok d) : d.Addressed := by
  cases lock with
  | remote uri sha256 =>
    cases read : Package.ofUri uri with
    | error e => rw [Lock.target, read] at h; cases h
    | ok p => rw [Lock.target, read] at h; cases h; exact ⟨uri, read⟩
  | directory uri path =>
    cases read : Package.ofUri uri with
    | error e => rw [Lock.target, read] at h; cases h
    | ok p => rw [Lock.target, read] at h; cases h; trivial

theorem addressed_target {dir : Path} {locks : Option (List (String × Lock))} {name uri : String}
    {d : DependencyTarget} (h : target dir locks name uri = .ok (some d)) : d.Addressed := by
  obtain ⟨p, hp, h⟩ := bind_eq_ok h
  have read := ok_of_mapError hp
  cases locks with
  | none => cases h; exact ⟨uri, read⟩
  | some locks =>
    dsimp only at h
    split at h
    · cases h
    · next lock _ =>
      cases found : lock.target dir with
      | error e => rw [found] at h; cases h
      | ok t => rw [found] at h; cases h; exact addressed_lockTarget found

/-- Loading a project reads the addresses of all packages. -/
theorem addressed_of_load {files : Files} {dir : Path} {project : Project}
    (h : load files dir = .ok project) : project.Addressed := by
  obtain ⟨declared, -, h⟩ := bind_eq_ok h
  obtain ⟨locks, -, h⟩ := bind_eq_ok h
  obtain ⟨targets, ht, h⟩ := bind_eq_ok h
  cases h
  have sound : ∀ t ∈ targets, ∀ d ∈ t, d.2.Addressed := by
    clear * - ht
    induction declared generalizing targets with
    | nil => cases ht; exact fun _ h => absurd h List.not_mem_nil
    | cons nameUri declared ih =>
      rw [List.mapM_cons] at ht
      obtain ⟨t, hd, ht⟩ := bind_eq_ok ht
      obtain ⟨ts, hs, ht⟩ := bind_eq_ok ht
      cases ht
      obtain ⟨found, hf, hd⟩ := bind_eq_ok hd
      cases hd
      intro t' ht' d hd
      rcases List.mem_cons.1 ht' with rfl | ht'
      · obtain ⟨target, rfl, rfl⟩ := Option.map_eq_some_iff.1 hd
        exact addressed_target hf
      · exact ih ts hs t' ht' d hd
  intro d hd
  obtain ⟨t, ht, e⟩ := List.mem_filterMap.1 (mem_ofDependencies hd)
  exact sound t ht d e

end Project

end PklAnalysis
