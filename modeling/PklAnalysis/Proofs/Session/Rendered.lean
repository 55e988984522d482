import PklAnalysis.Proofs.Session.Source
import PklAnalysis.Proofs.Types.Form
import PklAnalysis.Proofs.Types.Rebinding
import PklAnalysis.Types.Render

/-!
# The text of a type with full names

With full names, the text of a type that is `Written` is the text of its `Ty.form`
(`Written.gives_render`). Where names are plain and tell modules and declarations apart
(`DistinctNames`), the form can be read off the text, and types of one form are below each other as
long as an alias stands for one type with its arguments put in (`Written.mutual_of_form`).

Two types of one form need not be the same: a union may be grouped in several ways, and `null` may
stand on either side of it.
-/

namespace PklAnalysis

open Session

namespace ModuleSource

variable (src : ModuleSource)

/-- What a module is called: by its name, or else by its address. -/
def label (m : ModuleId) : String :=
  match src.treeOf m with
  | some t => t.moduleName?.getD t.uri
  | none => "<module " ++ toString m ++ ">"

/-- What a declaration is called in its module. -/
def nameOf (d : NodeRef) : String := ((src.construct? d).bind Construct.name?).getD "?"

/-- Modules are called differently, and so are the classes and aliases of a module. No name has a mark
in it; identifiers and dotted identifiers have none. -/
structure DistinctNames : Prop where
  label_plain : ∀ {m t}, src.treeOf m = some t → Form.Plain (src.label m).toList
  label_injective : ∀ {m n s t}, src.treeOf m = some s → src.treeOf n = some t →
    src.label m = src.label n → m = n
  name_plain : ∀ {d c}, src.construct? d = some c → (c.isClass || c.isAlias) = true →
    Form.Plain (src.nameOf d).toList
  name_injective : ∀ {m i j b c}, src.construct? ⟨m, i⟩ = some b → src.construct? ⟨m, j⟩ = some c →
    (b.isClass || b.isAlias) = true → (c.isClass || c.isAlias) = true →
      src.nameOf ⟨m, i⟩ = src.nameOf ⟨m, j⟩ → i = j

end ModuleSource

/-! ## Types and forms -/

/-- Types made of classes and aliases with full argument lists, string literals, `unknown`, `nothing`
and unions, without constraints. -/
inductive Written (src : ModuleSource) : Ty → Prop
  | unknown : Written src .unknown
  | nothing : Written src .nothing
  | literal (s : String) : Written src (.literal s [])
  | cls {d : NodeRef} {as : List Ty} {c : ClassDecl} : src.construct? d = some (.classDecl c) →
      as.length = c.typeParams.length → (∀ a ∈ as, Written src a) → Written src (.cls d as [])
  | typeAlias {d : NodeRef} {as : List Ty} {c : AliasDecl} : src.construct? d = some (.aliasDecl c) →
      as.length = c.typeParams.length → (∀ a ∈ as, Written src a) → Written src (.typeAlias d as [])
  | union {l r : Ty} : Written src l → Written src r → Written src (.union l r [])

namespace Ty

mutual
/-- What the text of a type tells. Type parameters and modules have no form of their own. -/
def form (src : ModuleSource) : Ty → Form
  | .unknown => .unknown
  | .nothing => .nothing
  | .var _ _ => .unknown
  | .module _ _ _ => .unknown
  | .literal s _ => .quoted s.toList
  | .cls d as c =>
    if (Ty.cls d as c).isFunction then
      .arrow (formAll src as).dropLast ((formAll src as).getLastD .unknown)
    else .named (src.label d.module).toList (src.nameOf d).toList (formAll src as)
  | .typeAlias d as _ => .named (src.label d.module).toList (src.nameOf d).toList (formAll src as)
  | .union l r _ =>
    if std.isNullClass l && !std.isNullClass r then .optional (form src r)
    else if std.isNullClass r && !std.isNullClass l then .optional (form src l)
    else .choice ((form src l).alternatives ++ (form src r).alternatives)
/-- The forms of several types. -/
def formAll (src : ModuleSource) : List Ty → List Form
  | [] => []
  | a :: as => form src a :: formAll src as
end

/-- What there are bars between in the text of a type. -/
def barred : Ty → List Ty
  | .union l r c =>
    if std.isNullClass l && !std.isNullClass r then [.union l r c]
    else if std.isNullClass r && !std.isNullClass l then [.union l r c]
    else l.barred ++ r.barred
  | t => [t]

variable {src : ModuleSource}

theorem formAll_eq_map (as : List Ty) : formAll src as = as.map (form src) := by
  induction as with
  | nil => rfl
  | cons a as ih => rw [formAll, ih, List.map_cons]

theorem isArrow_form (t : Ty) : (t.form src).isArrow = t.isFunction := by
  cases t with
  | cls d as c =>
    rw [form]
    split
    · next h => exact h.symm
    · next h => exact (Bool.eq_false_iff.2 h).symm
  | union l r c =>
    rw [form]
    split
    · rfl
    · split <;> rfl
  | _ => rfl

theorem isGrouped_form (t : Ty) : (t.form src).isGrouped = (t.isUnion || t.isFunction) := by
  cases t with
  | cls d as c =>
    rw [form]
    split
    · next h =>
      rw [h, Bool.or_true]
      rfl
    · next h =>
      rw [Bool.eq_false_iff.2 h]
      rfl
  | union l r c =>
    rw [form]
    split
    · rfl
    · split <;> rfl
  | _ => rfl

theorem alternatives_form : ∀ t : Ty, (t.form src).alternatives = t.barred.map (form src)
  | .cls d as c => by
    rw [Form.alternatives_eq]
    · rfl
    · rw [form]
      split <;> rfl
  | .union l r c => by
    rw [form, barred]
    split
    · next h =>
      rw [List.map_singleton, form, if_pos h]
      rfl
    · split
      · next h h' =>
        rw [List.map_singleton, form, if_neg h, if_pos h']
        rfl
      · rw [List.map_append, ← alternatives_form l, ← alternatives_form r]
        rfl
  | .unknown => rfl
  | .nothing => rfl
  | .var _ _ => rfl
  | .module _ _ _ => rfl
  | .typeAlias _ _ _ => rfl
  | .literal _ _ => rfl

/-- A type with an arrow has a result behind it. -/
theorem exists_result_of_isFunction {d : NodeRef} {as : List Ty} {c : Constraints}
    (h : (Ty.cls d as c).isFunction = true) : ∃ ps r, as = ps ++ [r] := by
  have ne : as ≠ [] := by
    rintro rfl
    exact absurd (Bool.and_eq_true_iff.1 h).2 nofun
  exact ⟨_, _, (List.dropLast_concat_getLast ne).symm⟩

end Ty

/-! ## The text -/

namespace Form

def string (f : Form) : String := String.ofList f.text

theorem toList_string (f : Form) : f.string.toList = f.text := String.toList_ofList

theorem toList_intercalate (fs : List Form) :
    (", ".intercalate (fs.map string)).toList = listText fs := by
  induction fs with
  | nil => rfl
  | cons f fs ih =>
    rw [listText, List.map_cons]
    cases fs with
    | nil =>
      rw [List.map_nil, String.intercalate_singleton, toList_string]
      exact (List.append_nil _).symm
    | cons g fs =>
      have ne : (g :: fs).map string ≠ [] := List.cons_ne_nil _ _
      rw [String.intercalate_cons_of_ne_nil ne, String.toList_append, String.toList_append, ih,
        toList_string, List.append_assoc]
      rfl

theorem toList_inParens (s : String) : (SyntaxTree.inParens s).toList = inParens s.toList := by
  unfold SyntaxTree.inParens
  rw [String.toList_append, String.toList_append]
  rfl

theorem string_named (m d : String) (fs : List Form) :
    (Form.named m.toList d.toList fs).string =
      m ++ "#" ++ d ++ Ty.renderedArgs (fs.map string) := by
  have args : (Ty.renderedArgs (fs.map string)).toList =
      if fs.isEmpty then [] else '<' :: (listText fs ++ ['>']) := by
    unfold Ty.renderedArgs
    cases fs with
    | nil => rfl
    | cons f fs =>
      rw [← toList_intercalate]
      show ("<" ++ _ ++ ">").toList = _
      rw [String.toList_append, String.toList_append]
      rfl
  apply String.toList_inj.1
  rw [String.toList_append, String.toList_append, String.toList_append, args, toList_string, text,
    List.append_assoc, List.append_assoc]
  rfl

theorem string_arrow (ps : List Form) (f : Form) :
    (Form.arrow ps f).string =
      SyntaxTree.inParens (", ".intercalate (ps.map string)) ++ " -> " ++ f.string := by
  apply String.toList_inj.1
  rw [String.toList_append, String.toList_append, toList_inParens, toList_intercalate,
    toList_string, toList_string, text, List.append_assoc]
  rfl

end Form

namespace Ty

variable {src : ModuleSource}

theorem string_optional (t : Ty) :
    (Form.optional (t.form src)).string = t.grouped (t.form src).string ++ "?" := by
  apply String.toList_inj.1
  unfold grouped
  rw [String.toList_append, Form.toList_string, Form.text, isGrouped_form]
  split
  · rw [Form.toList_inParens, Form.toList_string]
    rfl
  · rw [Form.toList_string]
    rfl

theorem toList_alternative {t : Ty} (h : t.hasConstraints = false) :
    (t.alternative (t.form src).string).toList = Form.choiceText (t.form src).alternatives := by
  unfold alternative
  rw [Form.choiceText_alternatives, isArrow_form, h, Bool.not_false, Bool.and_true]
  split
  · rw [Form.toList_inParens, Form.toList_string]
  · rw [Form.toList_string]

theorem alternatives_ne_nil : ∀ t : Ty, (t.form src).alternatives ≠ []
  | .union l r c => by
    rw [form]
    split
    · exact nofun
    · split
      · exact nofun
      · exact List.append_ne_nil_of_left_ne_nil (alternatives_ne_nil l) _
  | .cls d as c => by
    rw [form]
    split <;> exact nofun
  | .unknown => nofun
  | .nothing => nofun
  | .var _ _ => nofun
  | .module _ _ _ => nofun
  | .typeAlias _ _ _ => nofun
  | .literal _ _ => nofun

theorem string_choice {l r : Ty} (hl : l.hasConstraints = false) (hr : r.hasConstraints = false) :
    (Form.choice ((l.form src).alternatives ++ (r.form src).alternatives)).string =
      l.alternative (l.form src).string ++ "|" ++ r.alternative (r.form src).string := by
  apply String.toList_inj.1
  rw [String.toList_append, String.toList_append, toList_alternative hl, toList_alternative hr,
    Form.toList_string, Form.text,
    Form.choiceText_append (alternatives_ne_nil l) (alternatives_ne_nil r), List.append_assoc]
  rfl

end Ty

namespace Session

variable {src : ModuleSource}

theorem gives_declaration (d : NodeRef) :
    Gives src (Naming.full.declaration d) (src.label d.module ++ "#" ++ src.nameOf d) := by
  have label : Gives src (Naming.moduleLabel d.module) (src.label d.module) := by
    refine (gives_tree src d.module).bind ?_
    unfold ModuleSource.label
    cases src.treeOf d.module <;> exact gives_pure _
  have name : Gives src (declName? d) ((src.construct? d).bind Construct.name?) := by
    have construct := gives_source (Query.asks_construct (reading src) d)
    rw [value_construct] at construct
    refine construct.bind ?_
    unfold ModuleSource.construct?
    cases src.treeOf d.module with
    | none => exact gives_pure _
    | some t =>
      rw [Option.bind_some, Option.bind_some]
      cases t.construct? d.node <;> exact gives_pure _
  exact label.bind (name.bind (gives_pure _))

theorem gives_renderAll {names : Naming} {f : Ty → String} {as : List Ty}
    (h : ∀ a ∈ as, Gives src (a.render names) (f a)) :
    Gives src (Ty.renderAll names as) (as.map f) := by
  induction as with
  | nil => exact gives_pure _
  | cons a as ih =>
    rw [Ty.renderAll]
    exact (h a List.mem_cons_self).bind
      ((ih (fun x hx => h x (List.mem_cons_of_mem a hx))).bind (gives_pure _))

end Session

namespace Written

variable {src : ModuleSource} {t : Ty}

theorem hasConstraints (h : Written src t) : t.hasConstraints = false := by
  cases h <;> rfl

/-- With full names, the text of a type is that of its form, whenever it is asked for. -/
theorem gives_render (h : Written src t) :
    Gives src (t.render .full) (t.form src).string := by
  have texts : ∀ as : List Ty, as.map (fun a => (a.form src).string) =
      (Ty.formAll src as).map Form.string := by
    intro as
    rw [Ty.formAll_eq_map, List.map_map]
    rfl
  induction h with
  | unknown => exact gives_pure _
  | nothing => exact gives_pure _
  | literal s => exact gives_pure _
  | @cls d as c _ _ _ ih =>
    rw [Ty.render]
    refine (gives_renderAll ih).bind ?_
    rw [texts, Ty.form]
    split
    · next hf =>
      obtain ⟨ps, r, rfl⟩ := Ty.exists_result_of_isFunction hf
      rw [Form.string_arrow, Ty.formAll_eq_map, List.map_append, List.map_append,
        List.map_singleton, List.map_singleton, List.dropLast_concat, List.getLastD_concat,
        List.dropLast_concat, List.getLastD_concat]
      exact gives_pure _
    · rw [Form.string_named]
      exact (gives_declaration d).bind (gives_pure _)
  | @typeAlias d as c _ _ _ ih =>
    rw [Ty.render, Ty.form, Form.string_named, ← texts]
    exact (gives_declaration d).bind ((gives_renderAll ih).bind (gives_pure _))
  | @union l r hl hr ihl ihr =>
    rw [Ty.render, Ty.form]
    split
    · rw [Ty.string_optional]
      exact ihr.bind (gives_pure _)
    · split
      · rw [Ty.string_optional]
        exact ihl.bind (gives_pure _)
      · rw [Ty.string_choice hl.hasConstraints hr.hasConstraints]
        exact ihl.bind (ihr.bind (gives_pure _))

end Written

/-! ## Names -/

/-- The module of a declaration has a plain name. -/
theorem ModuleSource.DistinctNames.label_declared {src : ModuleSource} (names : src.DistinctNames)
    {d : NodeRef} {c : Construct} (hc : src.construct? d = some c) :
    Form.Plain (src.label d.module).toList := by
  obtain ⟨t, ht, -⟩ := Option.bind_eq_some_iff.1 hc
  exact names.label_plain ht

theorem Written.readable_form {src : ModuleSource} {t : Ty} (names : src.DistinctNames)
    (h : Written src t) : (t.form src).Readable := by
  induction h with
  | unknown => exact .unknown
  | nothing => exact .nothing
  | literal s => exact .quoted _
  | @cls d as c hc _ _ ih =>
    rw [Ty.form, Ty.formAll_eq_map]
    split
    · next hf =>
      obtain ⟨ps, r, rfl⟩ := Ty.exists_result_of_isFunction hf
      rw [List.map_append, List.map_singleton, List.dropLast_concat, List.getLastD_concat]
      exact .arrow (List.forall_mem_map.2 (fun p hp => ih p (List.mem_append_left _ hp)))
        (ih r (List.mem_append_right _ (List.mem_singleton_self r)))
    · exact .named (names.label_declared hc) (names.name_plain hc rfl) (List.forall_mem_map.2 ih)
  | @typeAlias d as c hc _ _ ih =>
    rw [Ty.form, Ty.formAll_eq_map]
    exact .named (names.label_declared hc) (names.name_plain hc rfl) (List.forall_mem_map.2 ih)
  | union _ _ ihl ihr =>
    rw [Ty.form]
    split
    · exact .optional ihr
    · split
      · exact .optional ihl
      · exact .choice_append ihl ihr

/-- Declarations of one label and one name are the same. -/
theorem ModuleSource.DistinctNames.eq {src : ModuleSource} (names : src.DistinctNames)
    {d e : NodeRef} {b c : Construct} (hd : src.construct? d = some b)
    (he : src.construct? e = some c) (hb : (b.isClass || b.isAlias) = true)
    (hc : (c.isClass || c.isAlias) = true)
    (label : (src.label d.module).toList = (src.label e.module).toList)
    (name : (src.nameOf d).toList = (src.nameOf e).toList) : d = e := by
  obtain ⟨s, hs, -⟩ := Option.bind_eq_some_iff.1 hd
  obtain ⟨t, ht, -⟩ := Option.bind_eq_some_iff.1 he
  obtain ⟨m, i⟩ := d
  obtain ⟨n, j⟩ := e
  obtain rfl : m = n := names.label_injective hs ht (String.toList_inj.1 label)
  rw [names.name_injective hd he hb hc (String.toList_inj.1 name)]

/-! ## Types of one form -/

theorem SyntaxTree.length_params {t : SyntaxTree} {d : NodeRef} {c : Construct}
    (h : t.construct? d.node = some c) : (t.params d).length = c.typeParams.length := by
  rw [params, h]
  exact List.length_map _

theorem Standard.IsClass.length_typeParams {src : ModuleSource} {d : NodeRef} {n : Nat}
    (h : IsClass d n) {c : ClassDecl} (hc : src.construct? d = some (.classDecl c)) :
    c.typeParams.length = n := by
  obtain ⟨hm, -, hn⟩ := h
  obtain ⟨m, i⟩ := d
  obtain rfl : m = ModuleId.base := hm
  rw [ModuleSource.construct?_base] at hc
  exact (hn.trans (SyntaxTree.length_params hc)).symm

namespace Written

variable {src : ModuleSource} {t : Ty}

theorem eq_nullTy (h : Written src t) (hn : std.isNullClass t = true) : t = std.nullTy := by
  cases h with
  | @cls d as c hc hl _ =>
    obtain rfl : d = std.null := Option.some.inj (beq_iff_eq.1 hn)
    rw [Standard.isClass_null.length_typeParams hc] at hl
    cases List.eq_nil_of_length_eq_zero hl
    rfl
  | _ => cases hn

theorem function_eq {d : NodeRef} {as : List Ty} {c : ClassDecl}
    (hc : src.construct? d = some (.classDecl c)) (hl : as.length = c.typeParams.length)
    (hf : (Ty.cls d as []).isFunction = true) : std.functions[as.length - 1]? = some d := by
  obtain ⟨n, hn⟩ := Option.isSome_iff_exists.1 (Bool.and_eq_true_iff.1 hf).1
  obtain ⟨lt, found, -⟩ := List.findIdx?_eq_some_iff_getElem.1 hn
  have at_n : std.functions[n]? = some d := by
    rw [List.getElem?_eq_getElem lt, beq_iff_eq.1 found]
  rw [hl, (Standard.isClass_functions at_n).length_typeParams hc]
  exact at_n

/-- How a type of some form is built. -/
inductive Shows (src : ModuleSource) : Form → Ty → Prop
  | unknown : Shows src .unknown .unknown
  | nothing : Shows src .nothing .nothing
  | quoted {s : String} {cs : List Char} : s.toList = cs → Shows src (.quoted cs) (.literal s [])
  | arrow {d : NodeRef} {as : List Ty} {fs : List Form} {f : Form} :
      std.functions[as.length - 1]? = some d → (∀ a ∈ as, Written src a) →
      as.map (Ty.form src) = fs ++ [f] → Shows src (.arrow fs f) (.cls d as [])
  | cls {d : NodeRef} {as : List Ty} {c : ClassDecl} {m n : List Char} {fs : List Form} :
      src.construct? d = some (.classDecl c) → (∀ a ∈ as, Written src a) →
      (src.label d.module).toList = m → (src.nameOf d).toList = n → as.map (Ty.form src) = fs →
      Shows src (.named m n fs) (.cls d as [])
  | typeAlias {d : NodeRef} {as : List Ty} {c : AliasDecl} {m n : List Char} {fs : List Form} :
      src.construct? d = some (.aliasDecl c) → (∀ a ∈ as, Written src a) →
      (src.label d.module).toList = m → (src.nameOf d).toList = n → as.map (Ty.form src) = fs →
      Shows src (.named m n fs) (.typeAlias d as [])
  | optional {t u : Ty} {f : Form} : Written src t → t.form src = f →
      u = .union std.nullTy t [] ∨ u = .union t std.nullTy [] → Shows src (.optional f) u
  | choice {l r : Ty} (fs : List Form) : Shows src (.choice fs) (.union l r [])

theorem shows (h : Written src t) : Shows src (t.form src) t := by
  cases h with
  | unknown => exact .unknown
  | nothing => exact .nothing
  | literal s => exact .quoted rfl
  | @cls d as c hc hl ha =>
    rw [Ty.form, Ty.formAll_eq_map]
    split
    · next hf =>
      have found := function_eq hc hl hf
      obtain ⟨ps, r, rfl⟩ := Ty.exists_result_of_isFunction hf
      rw [List.map_append, List.map_singleton, List.dropLast_concat, List.getLastD_concat]
      exact .arrow found ha (List.map_append ..)
    · exact .cls hc ha rfl rfl rfl
  | typeAlias hc _ ha =>
    rw [Ty.form, Ty.formAll_eq_map]
    exact .typeAlias hc ha rfl rfl rfl
  | @union l r hl hr =>
    rw [Ty.form]
    split
    · next h =>
      exact .optional hr rfl (.inl (by rw [hl.eq_nullTy (Bool.and_eq_true_iff.1 h).1]))
    · split
      · next h =>
        exact .optional hl rfl (.inr (by rw [hr.eq_nullTy (Bool.and_eq_true_iff.1 h).1]))
      · exact .choice _

theorem shows_of_form (h : Written src t) {f : Form} (e : t.form src = f) : Shows src f t :=
  e ▸ h.shows

theorem eq_nothing (h : Written src t) (e : t.form src = .nothing) : t = .nothing := by
  cases h.shows_of_form e
  rfl

end Written

namespace Reading

variable {r : Reading}

/-- What is below one of the types with bars between is below the whole. -/
theorem below_of_mem_barred (hr : r.Lawful) {t b : Ty} (h : r.Below t b) :
    ∀ {u : Ty}, b ∈ u.barred → r.Below t u
  | .union u v c, hb => by
    rw [Ty.barred] at hb
    split at hb
    · exact List.mem_singleton.1 hb ▸ h
    · split at hb
      · exact List.mem_singleton.1 hb ▸ h
      · rcases List.mem_append.1 hb with hb | hb
        · exact below_of_mem_parts hr List.mem_cons_self (below_of_mem_barred hr h hb)
        · exact below_of_mem_parts hr (List.mem_cons_of_mem _ List.mem_cons_self)
            (below_of_mem_barred hr h hb)
  | .unknown, hb => List.mem_singleton.1 hb ▸ h
  | .nothing, hb => List.mem_singleton.1 hb ▸ h
  | .var _ _, hb => List.mem_singleton.1 hb ▸ h
  | .module _ _ _, hb => List.mem_singleton.1 hb ▸ h
  | .literal _ _, hb => List.mem_singleton.1 hb ▸ h
  | .cls _ _ _, hb => List.mem_singleton.1 hb ▸ h
  | .typeAlias _ _ _, hb => List.mem_singleton.1 hb ▸ h

/-- A union is below what both its sides are below. -/
theorem below_union_left {t u v : Ty} {c : Constraints} (hv : v ≠ .nothing) (ht : r.Below t v)
    (hu : r.Below u v) : r.Below (.union t u c) v
  | 0 => rfl
  | n + 1 => sub_succ_of_parts rfl hv
    (List.forall_mem_cons.2 ⟨ht n, List.forall_mem_singleton.2 (hu n)⟩)

/-- The whole is below what all types with bars between are below. -/
theorem below_of_barred {u : Ty} (hu : u ≠ .nothing) :
    ∀ {t : Ty}, (∀ a ∈ t.barred, r.Below a u) → r.Below t u
  | .union t v c, h => by
    rw [Ty.barred] at h
    split at h
    · exact h _ (List.mem_singleton_self _)
    · split at h
      · exact h _ (List.mem_singleton_self _)
      · exact below_union_left hu
          (below_of_barred hu (fun a ha => h a (List.mem_append_left _ ha)))
          (below_of_barred hu (fun a ha => h a (List.mem_append_right _ ha)))
  | .unknown, h => h _ (List.mem_singleton_self _)
  | .nothing, h => h _ (List.mem_singleton_self _)
  | .var _ _, h => h _ (List.mem_singleton_self _)
  | .module _ _ _, h => h _ (List.mem_singleton_self _)
  | .literal _ _, h => h _ (List.mem_singleton_self _)
  | .cls _ _ _, h => h _ (List.mem_singleton_self _)
  | .typeAlias _ _ _, h => h _ (List.mem_singleton_self _)

end Reading

namespace Written

variable {src : ModuleSource} {r : Reading} {t u : Ty}

theorem of_mem_barred (h : Written src t) : ∀ b ∈ t.barred, Written src b := by
  induction h with
  | unknown => exact List.forall_mem_singleton.2 .unknown
  | nothing => exact List.forall_mem_singleton.2 .nothing
  | literal s => exact List.forall_mem_singleton.2 (.literal s)
  | cls hc hl ha _ => exact List.forall_mem_singleton.2 (.cls hc hl ha)
  | typeAlias hc hl ha _ => exact List.forall_mem_singleton.2 (.typeAlias hc hl ha)
  | union hl hr ihl ihr =>
    rw [Ty.barred]
    split
    · exact List.forall_mem_singleton.2 (.union hl hr)
    · split
      · exact List.forall_mem_singleton.2 (.union hl hr)
      · exact List.forall_mem_append.2 ⟨ihl, ihr⟩

variable (src r) in
/-- Every written type of the same form is below the type, and above it. -/
def Agrees (t : Ty) : Prop := ∀ u, Written src u → t.form src = u.form src → r.Mutual t u

/-- A type agrees with others of its form if the types with bars between do. -/
theorem agrees_of_barred (hr : r.Lawful) (ht : Written src t) (h : ∀ a ∈ t.barred, Agrees src r a) :
    Agrees src r t := by
  intro u hu e
  have same : t.barred.map (Ty.form src) = u.barred.map (Ty.form src) := by
    rw [← Ty.alternatives_form, e, Ty.alternatives_form]
  by_cases hn : t = .nothing
  · subst hn
    rw [hu.eq_nothing e.symm]
    exact .self _
  have hun : u ≠ .nothing := by
    rintro rfl
    exact hn (ht.eq_nothing e)
  constructor
  · refine Reading.below_of_barred hun (fun a ha => ?_)
    obtain ⟨b, hb, hf⟩ := List.mem_map.1 (same ▸ List.mem_map_of_mem ha)
    exact Reading.below_of_mem_barred hr (h a ha b (hu.of_mem_barred b hb) hf.symm).1 hb
  · refine Reading.below_of_barred hn (fun b hb => ?_)
    obtain ⟨a, ha, hf⟩ := List.mem_map.1 (same.symm ▸ List.mem_map_of_mem hb)
    exact Reading.below_of_mem_barred hr (h a ha b (hu.of_mem_barred b hb) hf).2 ha

/-- Arguments of the same forms agree in pairs. -/
theorem mutual_zip {as bs : List Ty} (h : ∀ a ∈ as, Agrees src r a) (hb : ∀ b ∈ bs, Written src b)
    (e : as.map (Ty.form src) = bs.map (Ty.form src)) :
    as.length = bs.length ∧ ∀ p ∈ as.zip bs, r.Mutual p.1 p.2 := by
  induction as generalizing bs with
  | nil =>
    cases bs with
    | nil => exact ⟨rfl, nofun⟩
    | cons => cases e
  | cons a as ih =>
    cases bs with
    | nil => cases e
    | cons b bs =>
      obtain ⟨head, tail⟩ := List.cons.inj e
      obtain ⟨len, pairs⟩ := ih (fun x hx => h x (List.mem_cons_of_mem a hx))
        (fun x hx => hb x (List.mem_cons_of_mem b hx)) tail
      refine ⟨congrArg (· + 1) len, List.forall_mem_cons.2 ⟨?_, pairs⟩⟩
      exact h a List.mem_cons_self b (hb b List.mem_cons_self) head

theorem mutual_cls {as bs : List Ty} (d : NodeRef) (h : ∀ a ∈ as, Agrees src r a)
    (hb : ∀ b ∈ bs, Written src b) (e : as.map (Ty.form src) = bs.map (Ty.form src)) :
    r.Mutual (.cls d as []) (.cls d bs []) := by
  obtain ⟨len, pairs⟩ := mutual_zip h hb e
  have args := Reading.Mutual.cls d [] pairs
  rwa [List.map_fst_zip (Nat.le_of_eq len), List.map_snd_zip (Nat.le_of_eq len.symm)] at args

theorem mutual_typeAlias {as bs : List Ty} (hr : r.Uniform) (d : NodeRef)
    (h : ∀ a ∈ as, Agrees src r a) (hb : ∀ b ∈ bs, Written src b)
    (e : as.map (Ty.form src) = bs.map (Ty.form src)) :
    r.Mutual (.typeAlias d as []) (.typeAlias d bs []) := by
  obtain ⟨len, pairs⟩ := mutual_zip h hb e
  have args := hr.mutual_typeAlias d [] pairs
  rwa [List.map_fst_zip (Nat.le_of_eq len), List.map_snd_zip (Nat.le_of_eq len.symm)] at args

/-- `null` may stand on either side. -/
theorem mutual_optional (hr : r.Lawful) (h : r.Mutual t u) {x y : Ty}
    (hx : x = .union std.nullTy t [] ∨ x = .union t std.nullTy [])
    (hy : y = .union std.nullTy u [] ∨ y = .union u std.nullTy []) : r.Mutual x y := by
  have parts : ∀ {t x : Ty}, x = .union std.nullTy t [] ∨ x = .union t std.nullTy [] →
      t ∈ r.parts x ∧ std.nullTy ∈ r.parts x := by
    rintro t x (rfl | rfl)
    · exact ⟨List.mem_cons_of_mem _ List.mem_cons_self, List.mem_cons_self⟩
    · exact ⟨List.mem_cons_self, List.mem_cons_of_mem _ List.mem_cons_self⟩
  have half : ∀ {t u x y : Ty}, r.Below t u →
      (x = .union std.nullTy t [] ∨ x = .union t std.nullTy []) →
      (y = .union std.nullTy u [] ∨ y = .union u std.nullTy []) → r.Below x y := by
    intro t u x y h hx hy
    have ty := Reading.below_of_mem_parts hr (parts hy).1 h
    have null := Reading.below_of_mem_parts hr (parts hy).2 (Reading.below_self std.nullTy)
    have proper : y ≠ .nothing := by rcases hy with rfl | rfl <;> exact nofun
    rcases hx with rfl | rfl
    · exact Reading.below_union_left proper null ty
    · exact Reading.below_union_left proper ty null
  exact ⟨half h.1 hx hy, half h.2 hy hx⟩

/-- Every type with bars between agrees with others of its form. -/
theorem agrees_of_mem_barred (names : src.DistinctNames) (hr : r.Uniform) (ht : Written src t) :
    ∀ a ∈ t.barred, Agrees src r a := by
  induction ht with
  | unknown =>
    refine List.forall_mem_singleton.2 (fun u hu e => ?_)
    cases hu.shows_of_form (f := .unknown) e.symm
    exact .self _
  | nothing =>
    refine List.forall_mem_singleton.2 (fun u hu e => ?_)
    cases hu.shows_of_form (f := .nothing) e.symm
    exact .self _
  | literal s =>
    refine List.forall_mem_singleton.2 (fun u hu e => ?_)
    cases hu.shows_of_form (f := .quoted s.toList) e.symm with
    | quoted same =>
      rw [String.toList_inj.1 same]
      exact .self _
  | @cls d as c hc hl ha ih =>
    refine List.forall_mem_singleton.2 (fun u hu e => ?_)
    have args := fun a h => agrees_of_barred hr.lawful (ha a h) (ih a h)
    have mine := (Written.cls hc hl ha).shows
    have theirs := hu.shows_of_form e.symm
    generalize (Ty.cls d as []).form src = f at mine theirs
    cases mine with
    | arrow found _ shown =>
      cases theirs with
      | @arrow d' bs _ _ found' written shown' =>
        have same := shown.trans shown'.symm
        have len := (mutual_zip args written same).1
        rw [len, found'] at found
        cases found
        exact mutual_cls d args written same
    | cls _ _ label name shown =>
      cases theirs with
      | cls hc' written label' name' shown' =>
        cases names.eq hc hc' rfl rfl (label.trans label'.symm) (name.trans name'.symm)
        exact mutual_cls d args written (shown.trans shown'.symm)
      | typeAlias hc' written label' name' shown' =>
        cases names.eq hc hc' rfl rfl (label.trans label'.symm) (name.trans name'.symm)
        cases hc.symm.trans hc'
    | optional _ _ built => rcases built with h | h <;> cases h
  | @typeAlias d as c hc hl ha ih =>
    refine List.forall_mem_singleton.2 (fun u hu e => ?_)
    have args := fun a h => agrees_of_barred hr.lawful (ha a h) (ih a h)
    have mine := (Written.typeAlias hc hl ha).shows
    have theirs := hu.shows_of_form e.symm
    generalize (Ty.typeAlias d as []).form src = f at mine theirs
    cases mine with
    | typeAlias _ _ label name shown =>
      cases theirs with
      | cls hc' written label' name' shown' =>
        cases names.eq hc hc' rfl rfl (label.trans label'.symm) (name.trans name'.symm)
        cases hc.symm.trans hc'
      | typeAlias hc' written label' name' shown' =>
        cases names.eq hc hc' rfl rfl (label.trans label'.symm) (name.trans name'.symm)
        exact mutual_typeAlias hr d args written (shown.trans shown'.symm)
    | optional _ _ built => rcases built with h | h <;> cases h
  | @union l v hl hv ihl ihv =>
    -- a question mark hides one type, which may stand before or behind `null`
    have optional : ∀ {x : Ty}, Agrees src r x →
        (Ty.union l v []).form src = .optional (x.form src) →
        (Ty.union l v [] = .union std.nullTy x [] ∨ Ty.union l v [] = .union x std.nullTy []) →
          Agrees src r (.union l v []) := by
      intro x agrees shape hx u hu e
      cases hu.shows_of_form (e.symm.trans shape) with
      | optional hy same built =>
        exact mutual_optional hr.lawful (agrees _ hy same.symm) hx built
    rw [Ty.barred]
    split
    · next h =>
      refine List.forall_mem_singleton.2 (optional (agrees_of_barred hr.lawful hv ihv) ?_ ?_)
      · rw [Ty.form, if_pos h]
      · exact .inl (by rw [hl.eq_nullTy (Bool.and_eq_true_iff.1 h).1])
    · split
      · next h h' =>
        refine List.forall_mem_singleton.2 (optional (agrees_of_barred hr.lawful hl ihl) ?_ ?_)
        · rw [Ty.form, if_neg h, if_pos h']
        · exact .inr (by rw [hv.eq_nullTy (Bool.and_eq_true_iff.1 h').1])
      · exact List.forall_mem_append.2 ⟨ihl, ihv⟩

/-- Types of one form are below each other, whatever the limit. -/
theorem mutual_of_form (names : src.DistinctNames) (hr : r.Uniform) (ht : Written src t)
    (hu : Written src u) (e : t.form src = u.form src) : r.Mutual t u :=
  agrees_of_barred hr.lawful ht (ht.agrees_of_mem_barred names hr) u hu e

end Written

end PklAnalysis
