import PklAnalysis.Proofs.Diagnostic.Order
import PklAnalysis.Proofs.Session.Table
import PklAnalysis.Proofs.Standard.Clauses
import PklAnalysis.Proofs.Workspace.Events

/-!
# Diagnostics are never stale

`Known.report` is what a brand-new analysis says of a module, given nothing but what the events
have said. Whatever happens to a workspace, asking it for diagnostics gives just that, and between
two such questions the module is analysed again only if something has happened on which the first
analysis depends (`diagnostics_never_stale`). Events that do not disturb an analysis keep it
current (`analysed_handle`).
-/

namespace PklAnalysis.Workspace

variable {files : Files} {w w' : Workspace} {k : Known}

/-! ## Analysis of what is known -/

namespace Known

/-- The address that has an id. -/
def address? (k : Known) : ModuleId → Option String
  | 0 => none
  | n + 1 => k.addresses[n]?

def isOpen (k : Known) (uri : String) : Bool := (k.trees uri).isSome

def openId? (k : Known) (uri : String) : Option ModuleId := if k.isOpen uri then k.id? uri else none

/-- The project around the module at an address, as its files say. -/
def project? (k : Known) (uri : String) : Option Project :=
  (projectDir? { projectDirs := k.projects } uri).bind fun dir => (Project.load k.files dir).toOption

/-- The open modules as the source of a session; references lead to open modules. -/
def source (k : Known) : ModuleSource where
  tree i := (k.address? i).bind k.trees
  resolve i target := do
    let uri ← (k.address? i).filter k.isOpen
    k.openId? (← (resolveReference (k.project? uri) uri target).toOption)

/-- The analysis of a module in a new session. -/
def analysis (k : Known) (i : ModuleId) : Except EvalError (List Diagnostic) × Memory :=
  (Session.run k.source (PklAnalysis.diagnostics k.settings.reports i)).run {}

/-- The diagnostics that a new analysis gives; a module that is not open has none, and neither has
one whose analysis is broken off. -/
def report (k : Known) (uri : String) : List Diagnostic :=
  (k.openId? uri).elim [] fun i => (k.analysis i).1.toOption.getD []

/-- An address has the id at which it stands. -/
theorem id?_eq_some_iff (h : k.addresses.Nodup) {uri : String} {i : ModuleId} :
    k.id? uri = some i ↔ k.address? i = some uri := by
  unfold id?
  rw [Option.map_eq_some_iff]
  constructor
  · rintro ⟨n, hn, rfl⟩
    obtain ⟨hlt, hu, -⟩ := List.idxOf?_eq_some_iff.1 hn
    exact List.getElem?_eq_some_iff.2 ⟨hlt, hu⟩
  · intro hi
    cases i with
    | zero => cases hi
    | succ n =>
      obtain ⟨hlt, hu⟩ := List.getElem?_eq_some_iff.1 hi
      refine ⟨n, List.idxOf?_eq_some_iff.2 ⟨hlt, hu, fun j hj he => ?_⟩, rfl⟩
      have same : j = n := (List.Nodup.getElem_inj_iff h).1 (he.trans hu.symm)
      exact Nat.ne_of_lt hj same

end Known

namespace Knows

theorem openModuleId (h : Knows k files w) (uri : String) :
    w.openModuleId uri = k.openId? uri := by
  rw [openModuleId_eq, h.trees, h.id?]
  rfl

/-- The open modules are at the ids of their addresses. -/
theorem module (hw : Registered w) (h : Knows k files w) (i : ModuleId) :
    w.modules[i]?.map (fun m => (m.uri, m.tree)) =
      (k.address? i).bind fun uri => (k.trees uri).map fun tree => (uri, tree) := by
  have stands : ∀ uri, k.address? i = some uri → k.trees uri = w.modules[i]?.map (·.tree) := by
    intro uri hu
    have hi : w.id? uri = some i := (h.id? uri).trans ((Known.id?_eq_some_iff h.distinct).2 hu)
    rw [← h.trees, tree?_eq, hi, Option.bind_some]
  cases hm : w.modules[i]? with
  | some m =>
    have hi : k.address? i = some m.uri :=
      (Known.id?_eq_some_iff h.distinct).1 ((h.id? m.uri).symm.trans (hw.addressed hm))
    rw [hi, Option.bind_some, stands m.uri hi, hm]
    rfl
  | none =>
    cases hu : k.address? i with
    | none => rfl
    | some uri =>
      rw [Option.bind_some, stands uri hu, hm]
      rfl

theorem project? (h : Knows k files w) (uri : String) :
    (w.uncached.projectDir? uri).bind (w.uncached.projectNow files) = k.project? uri := by
  have hd : w.uncached.projectDir? uri = projectDir? { projectDirs := k.projects } uri := by
    unfold projectDir?
    rw [show w.uncached.projectDirs = k.projects from h.projects]
  have hn : w.uncached.projectNow files = fun dir => (Project.load k.files dir).toOption := by
    funext dir
    rw [projectNow_uncached, h.files]
  unfold Known.project?
  rw [hd, hn]

/-- An analysis from scratch sees what is known. -/
theorem source (hw : Registered w) (h : Knows k files w) : w.uncached.source files = k.source := by
  have tree : ∀ i : ModuleId, w.modules[i]?.map (·.tree) = (k.address? i).bind k.trees := by
    intro i
    have hm := congrArg (·.map Prod.snd) (h.module hw i)
    simpa [Option.map_bind, Function.comp_def] using hm
  have uri : ∀ i : ModuleId, w.modules[i]?.map (·.uri) = (k.address? i).filter k.isOpen := by
    intro i
    have hm := congrArg (·.map Prod.fst) (h.module hw i)
    rw [Option.map_map] at hm
    refine Eq.trans hm ?_
    cases k.address? i with
    | none => rfl
    | some u =>
      rw [Option.bind_some, Option.filter_some, Known.isOpen]
      cases k.trees u <;> rfl
  have resolve : ∀ (i : ModuleId) (target : String), w.uncached.resolve files i target =
      ((k.address? i).filter k.isOpen).bind fun u =>
        (resolveReference (k.project? u) u target).toOption.bind k.openId? := by
    intro i target
    rw [← uri i, Option.bind_map]
    unfold Workspace.resolve
    refine Option.bind_congr (fun m _ => ?_)
    show (resolveReference _ m.uri target).toOption.bind w.openModuleId = _
    rw [h.project? m.uri, funext h.openModuleId]
    rfl
  unfold Workspace.source Known.source
  exact congrArg₂ ModuleSource.mk (funext tree) (funext fun i => funext (resolve i))

theorem analysis (hw : Registered w) (h : Knows k files w) (i : ModuleId) :
    w.analysis files i = k.analysis i := by
  unfold Workspace.analysis answer Known.analysis
  rw [h.source hw, h.settings]

theorem report (hw : Registered w) (h : Knows k files w) (uri : String) :
    w.freshDiagnostics files uri = k.report uri := by
  unfold freshDiagnostics Known.report
  rw [h.openModuleId]
  exact congrArg _ (funext fun i => by rw [h.analysis hw])

end Knows

/-! ## Analyses that stay current -/

/-- What makes an analysis that has loaded certain modules out of date: a module is opened or
closed, a tree that it has loaded is replaced, or settings, projects or files change. -/
def Disturbs (loaded : List ModuleId) (k : Known) : Event → Prop
  | .update tree =>
    k.accepts tree = true ∧ (k.isOpen tree.uri = false ∨ tree.module ∈ loaded)
  | .close uri => k.isOpen uri = true
  | .settings _ => True
  | .addProject dir => k.projects.any (·.parts == dir.parts) = false
  | .sync _ => True
  | .download _ => True
  | _ => False

/-- None of the events makes an analysis out of date. -/
def Undisturbed (loaded : List ModuleId) : Known → List Event → Prop
  | _, [] => True
  | k, e :: es => ¬ Disturbs loaded k e ∧ Undisturbed loaded (k.after e) es

/-- The module at `uri` has the id `i`, its analysis from scratch is `a`, and its diagnostics are
kept. -/
structure Analysed (files : Files) (uri : String) (i : ModuleId)
    (a : Except EvalError (List Diagnostic) × Memory) (w : Workspace) : Prop where
  opened : w.openModuleId uri = some i
  analysis : w.analysis files i = a
  holds : w.Holds uri

section

variable {uri : String} {i : ModuleId} {a : Except EvalError (List Diagnostic) × Memory}

theorem Analysed.congr (h : Analysed files uri i a w) (hu : w'.uncached = w.uncached)
    (hh : w'.Holds uri) : Analysed files uri i a w' :=
  ⟨(openModuleId_congr hu uri).trans h.opened, (analysis_congr hu i).trans h.analysis, hh⟩

theorem analysed_moduleId (hw : Registered w) (h : Analysed files uri i a w) (other : String) :
    Analysed files uri i a (w.moduleId other).2 := by
  rcases moduleId_eq_or w other with he | he
  · rw [he]
    exact h
  · rw [he]
    refine ⟨?_, ?_, h.holds⟩
    · rw [openModuleId_withAddress hw, h.opened]
    · rw [analysis_withAddress hw, h.analysis]

theorem analysed_withTree (hw : Consistent files w) (h : Analysed files uri i a w) {j : ModuleId}
    {m : OpenModule} (tree : SyntaxTree) (hm : w.modules[j]? = some m) (hj : j ∉ a.2.loaded) :
    Analysed files uri i a (w.withTree j m tree) := by
  have hl : j ∉ (w.analysis files i).2.loaded := by rwa [h.analysis]
  refine ⟨?_, ?_, ?_⟩
  · rw [openModuleId_withTree tree hm, h.opened]
  · rw [analysis_withTree tree hm hl, h.analysis]
  · obtain ⟨e, he, hcur⟩ := h.holds
    obtain ⟨k, ds, hk, -, -, hd⟩ := (hw.kept he).of_diagnosticsKey hcur
    have hik : i = k := Option.some.inj (h.opened.symm.trans hk)
    subst hik
    obtain ⟨hglobal, hlt⟩ := hw.tracked hm
    refine ⟨e, he, ((hw.dated he).isCurrent_increment hlt).2 ⟨fun ht => ?_, hcur⟩⟩
    rw [hd] at ht
    rcases List.mem_append.1 ht with ht | ht
    · exact hglobal ht
    · exact hl ((tracker_mem_trackersOf hw.toRegistered hm).1 ht)

theorem analysed_updateModule (hw : Consistent files w) (hk : Knows k files w)
    (h : Analysed files uri i a w) {tree : SyntaxTree}
    (he : ¬ Disturbs a.2.loaded k (.update tree)) :
    Analysed files uri i a (w.updateModule tree).2 := by
  have hv := analysed_moduleId hw.toRegistered h tree.uri
  have hvs := consistent_moduleId hw tree.uri
  have hid := id?_moduleId w tree.uri
  have old := tree?_moduleId hw.toRegistered tree.uri tree.uri
  have accepted := hk.accepts_iff hw.toRegistered tree
  rcases hm : w.moduleId tree.uri with ⟨j, v⟩
  rw [hm] at hv hvs hid old accepted
  obtain ⟨-, hu⟩ | ⟨ht, hn, -⟩ | ⟨m, ht, hj, hu⟩ := updateModule_cases w tree hm
  · rw [hu]
    exact hv
  · have closed : k.trees tree.uri = none := by
      rw [← hk.trees, ← old, tree?_eq, hid, Option.bind_some, hn]
      rfl
    refine absurd ⟨accepted.2 ht, .inl ?_⟩ he
    rw [Known.isOpen, closed]
    rfl
  · rw [hu]
    exact analysed_withTree hvs hv tree hj (fun hl => he ⟨accepted.2 ht, .inr (ht ▸ hl)⟩)

/-- An event that does not disturb an analysis keeps it current. -/
theorem analysed_handle {s : Files × Workspace} (hs : Consistent s.1 s.2) (hk : Knows k s.1 s.2)
    (h : Analysed s.1 uri i a s.2) {e : Event} (he : ¬ Disturbs a.2.loaded k e) :
    Analysed (handle s e).1 uri i a (handle s e).2 := by
  obtain ⟨files, w⟩ := s
  cases e with
  | address other => exact analysed_moduleId hs.toRegistered h other
  | update tree => exact analysed_updateModule hs hk h he
  | close other =>
    have closed : w.openModuleId other = none := by
      rw [openModuleId_eq, hk.trees]
      exact if_neg he
    show Analysed files uri i a (w.closeModule other).2
    unfold closeModule
    rw [closed]
    exact h
  | settings | sync | download => exact absurd trivial he
  | addProject dir =>
    have hany : w.projectDirs.any (·.parts == dir.parts) = true := by
      rw [hk.projects]
      exact (Bool.not_eq_false _).mp he
    show Analysed files uri i a (w.addProject dir)
    unfold Workspace.addProject
    rw [if_pos hany]
    exact h
  | project dir =>
    have hl := looked_project files dir w
    exact h.congr hl.uncached (h.holds.of_looked hl)
  | request x =>
    have hl := looked_ask files x w
    exact h.congr hl.uncached (h.holds.of_looked hl)
  | diagnostics other =>
    have hd := diagnostics_cases hs other
    exact h.congr hd.uncached (hd.holds_of_holds h.holds)

theorem analysed_run {s : Files × Workspace} (hs : Consistent s.1 s.2) (hk : Knows k s.1 s.2)
    (h : Analysed s.1 uri i a s.2) {es : List Event} (he : Undisturbed a.2.loaded k es) :
    Analysed (es.foldl handle s).1 uri i a (es.foldl handle s).2 := by
  induction es generalizing s k with
  | nil => exact h
  | cons e es ih =>
    exact ih (consistent_handle hs e) (knows_handle hs hk e) (analysed_handle hs hk h he.1) he.2

end

/-- Whatever has happened to a workspace, it holds what its events say, and the diagnostics of a
module are those that a new analysis of this gives. Unless that analysis is broken off, none is
begun when the diagnostics are asked for again, as long as no module has been opened or closed, the
settings, the projects and the files are the same, and no tree that it has loaded was replaced. -/
theorem diagnostics_never_stale (settings : Settings) (files : Files) (es : List Event)
    (uri : String) :
    let s := es.foldl handle (files, new settings)
    let k := es.foldl Known.after { files, settings }
    let r := diagnostics s.1 uri s.2
    Knows k s.1 s.2 ∧ r.1 = k.report uri ∧
      ∀ i ds later, k.openId? uri = some i → (k.analysis i).1 = .ok ds →
        Undisturbed (k.analysis i).2.loaded k later →
        let s' := later.foldl handle (s.1, r.2)
        (diagnostics s'.1 uri s'.2).2.diagnosticsComputed = s'.2.diagnosticsComputed := by
  intro s k r
  have start : Consistent files (new settings) := consistent_new files settings
  have hs : Consistent s.1 s.2 := @consistent_run (files, new settings) start es
  have hk : Knows k s.1 s.2 :=
    @knows_run _ (files, new settings) start (knows_new files settings) es
  have hr := diagnostics_cases hs uri
  refine ⟨hk, (hr.fresh hs).trans (hk.report hs.toRegistered uri), fun i ds later hi ha hl => ?_⟩
  intro s'
  have opened : s.2.openModuleId uri = some i := (hk.openModuleId uri).trans hi
  have same : s.2.analysis s.1 i = k.analysis i := hk.analysis hs.toRegistered i
  have hafter : Consistent s.1 r.2 := hr.consistent hs
  have known : Knows k s.1 r.2 := hk.congr hr.uncached
  have analysed : Analysed s.1 uri i (k.analysis i) r.2 :=
    ⟨(openModuleId_congr hr.uncached uri).trans opened, (analysis_congr hr.uncached i).trans same,
      hr.holds opened (same ▸ ha)⟩
  have hlater : Consistent s'.1 s'.2 := @consistent_run (s.1, r.2) hafter later
  have holds := (@analysed_run _ _ _ _ (s.1, r.2) hafter known analysed _ hl).holds
  exact (diagnostics_cases hlater uri).computed_eq_of_holds holds

/-! ### A clause that leads nowhere -/

/-- The module `amends "parent.pkl"`. -/
def heir : SyntaxTree where
  uri := "file:///heir.pkl"
  module := 1
  nodes := #[⟨.module { clause := some ⟨.amending, "parent.pkl", ⟨7, 19⟩⟩ }, ⟨0, 19⟩, none⟩]
  root := 0

/-- Some other module, with or without a name. -/
def aside (name : Option String) : SyntaxTree where
  uri := "file:///aside.pkl"
  module := 2
  nodes := #[⟨.module { name }, .nowhere, none⟩]
  root := 0

def parent : SyntaxTree where
  uri := "file:///parent.pkl"
  module := 3
  nodes := #[⟨.module {}, .nowhere, none⟩]
  root := 0

/-- That there is no module for the clause. -/
def missing : Diagnostic := .of ⟨7, 19⟩ .unresolvedModule ["parent.pkl"]

def AboutHeir : Question → Prop
  | .tree i => i = 1
  | .reference _ _ => True
  | _ => False

/-- Wherever the module is known, it is all that is loaded, and its clause is all that is
wrong. -/
theorem analysis_heir {k : Known} (ht : k.source.tree 1 = some heir)
    (hs : k.settings.reports = {}) : (k.analysis 1).1 =
      .ok (if (k.source.resolve 1 "parent.pkl").isSome then [] else [missing]) ∧
    ∀ i ∈ (k.analysis 1).2.loaded, i = 1 := by
  have tree : k.source.table (.tree 1) = some heir := ht
  have asks : (PklAnalysis.diagnostics {} 1).Asks k.source.table AboutHeir := by
    refine ⟨rfl, ?_⟩
    rw [tree]
    exact ⟨trivial, trivial⟩
  have value : (PklAnalysis.diagnostics {} 1).value k.source.table = .ok (Diagnostic.sorted
      ((if (k.source.resolve 1 "parent.pkl").isSome then [] else [missing]) ++ [])) := by
    show (Query.ask _ _).value _ = _
    rw [Query.value_ask, tree]
    rfl
  have source : ∀ q, AboutHeir q → q.IsSource ∧ k.source.Tabled q := by
    intro q hq
    cases q with
    | tree | reference => exact ⟨rfl, trivial⟩
    | _ => cases hq
  have sorted : Diagnostic.sorted
      (if (k.source.resolve 1 "parent.pkl").isSome then [] else [missing]) =
        if (k.source.resolve 1 "parent.pkl").isSome then [] else [missing] := by
    split <;> exact Diagnostic.sorted_eq_self (by decide) (by decide)
  have given := fun q hq => Session.gives_tabled (source q hq).2
  unfold Known.analysis
  rw [hs]
  refine ⟨?_, fun i hi => ?_⟩
  · rw [List.append_nil, sorted] at value
    exact (Session.gives_of_asks asks given {} .fresh).trans value
  · exact (Session.loaded_of_asks asks (fun q hq => (source q hq).1) given .fresh hi).resolve_left
      List.not_mem_nil

/-- A clause that leads nowhere is reported. That another module gets another tree leaves the
analysis current, and the report goes away with the module to which the clause leads. -/
theorem diagnostics_never_stale_heir :
    let before : List Event := [.update heir, .update (aside none)]
    let later : List Event := [.update (aside (some "aside"))]
    let further : List Event := before ++ .diagnostics heir.uri :: later ++ [.update parent]
    let s := before.foldl handle ({}, new {})
    let r := diagnostics s.1 heir.uri s.2
    let s' := later.foldl handle (s.1, r.2)
    let t := further.foldl handle ({}, new {})
    r.1 = [missing] ∧
      (diagnostics s'.1 heir.uri s'.2).2.diagnosticsComputed = s'.2.diagnosticsComputed ∧
      (diagnostics t.1 heir.uri t.2).1 = [] := by
  intro before later further s r s' t
  have first := diagnostics_never_stale {} {} before heir.uri
  have last := diagnostics_never_stale {} {} further heir.uri
  let k : Known := before.foldl Known.after { files := {}, settings := {} }
  let k' : Known := further.foldl Known.after { files := {}, settings := {} }
  have alone := @analysis_heir k rfl rfl
  have together := @analysis_heir k' rfl rfl
  have nowhere : (k.source.resolve 1 "parent.pkl").isSome = false := by decide +kernel
  have found : (k'.source.resolve 1 "parent.pkl").isSome = true := by decide +kernel
  rw [nowhere, if_neg Bool.false_ne_true] at alone
  rw [found, if_pos rfl] at together
  have opened : k.openId? heir.uri = some 1 := by decide +kernel
  have opened' : k'.openId? heir.uri = some 1 := by decide +kernel
  have beside : k.isOpen "file:///aside.pkl" = true := by decide +kernel
  have quiet : Undisturbed (k.analysis 1).2.loaded k later := by
    refine ⟨fun h => h.2.elim (fun hn => ?_) (fun hl => ?_), trivial⟩
    · exact Bool.false_ne_true (hn.symm.trans beside)
    · exact absurd (alone.2 2 hl) (by decide)
  refine ⟨first.2.1.trans ?_, first.2.2 1 [missing] later opened alone.1 quiet, last.2.1.trans ?_⟩
  · show k.report heir.uri = _
    unfold Known.report
    rw [opened, Option.elim_some, alone.1]
    rfl
  · show k'.report heir.uri = _
    unfold Known.report
    rw [opened', Option.elim_some, together.1]
    rfl

end PklAnalysis.Workspace
