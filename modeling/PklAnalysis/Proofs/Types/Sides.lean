import PklAnalysis.Proofs.Types.Built

/-!
# The sides of unions

`Ty.Sides R t` says that the two sides of every union in the type `t`, at any depth, are related by
`R`. A union is only ever built from two types that are neither `unknown` nor `nothing`. So if `R`
relates all of these, types are built with `Sides R` (`Sides.built`). Substitution changes the sides
of the unions that are there (`Sides.bind`).
-/

namespace PklAnalysis

namespace Ty

/-- A type occurs in itself, in arguments, and in the sides of unions. -/
inductive Part (x : Ty) : Ty → Prop
  | self : Part x x
  | arg {d : NodeRef} {as : List Ty} {c : Constraints} {a : Ty} :
      a ∈ as → Part x a → Part x (.cls d as c)
  | aliasArg {d : NodeRef} {as : List Ty} {c : Constraints} {a : Ty} :
      a ∈ as → Part x a → Part x (.typeAlias d as c)
  | left {l r : Ty} {c : Constraints} : Part x l → Part x (.union l r c)
  | right {l r : Ty} {c : Constraints} : Part x r → Part x (.union l r c)

/-- The sides of every union in the type are related. -/
def Sides (R : Ty → Ty → Prop) (t : Ty) : Prop := ∀ l r c, Part (.union l r c) t → R l r

namespace Sides

variable {R S : Ty → Ty → Prop} {t l r : Ty} {as : List Ty}

theorem unknown : Sides R .unknown := nofun
theorem nothing : Sides R .nothing := nofun
theorem var (p : NodeRef) (c : Constraints) : Sides R (.var p c) := nofun
theorem module (i : ModuleId) (n : Option String) (c : Constraints) : Sides R (.module i n c) := nofun
theorem literal (s : String) (c : Constraints) : Sides R (.literal s c) := nofun

theorem cls (d : NodeRef) (c : Constraints) (h : ∀ a ∈ as, Sides R a) : Sides R (.cls d as c)
  | _, _, _, .arg ha hp => h _ ha _ _ _ hp

theorem typeAlias (d : NodeRef) (c : Constraints) (h : ∀ a ∈ as, Sides R a) :
    Sides R (.typeAlias d as c)
  | _, _, _, .aliasArg ha hp => h _ ha _ _ _ hp

theorem union (c : Constraints) (h : R l r) (hl : Sides R l) (hr : Sides R r) :
    Sides R (.union l r c)
  | _, _, _, .self => h
  | _, _, _, .left hp => hl _ _ _ hp
  | _, _, _, .right hp => hr _ _ _ hp

theorem simple (d : NodeRef) : Sides R (Base.simple d) := cls d [] nofun

theorem of_cls {d : NodeRef} {c : Constraints} (h : Sides R (.cls d as c)) : ∀ a ∈ as, Sides R a :=
  fun _ ha _ _ _ hp => h _ _ _ (.arg ha hp)

theorem of_typeAlias {d : NodeRef} {c : Constraints} (h : Sides R (.typeAlias d as c)) :
    ∀ a ∈ as, Sides R a :=
  fun _ ha _ _ _ hp => h _ _ _ (.aliasArg ha hp)

theorem of_left {c : Constraints} (h : Sides R (.union l r c)) : Sides R l :=
  fun _ _ _ hp => h _ _ _ (.left hp)

theorem of_right {c : Constraints} (h : Sides R (.union l r c)) : Sides R r :=
  fun _ _ _ hp => h _ _ _ (.right hp)

theorem withConstraints (h : Sides R t) (c : Constraints) : Sides R (t.withConstraints c) := by
  cases t with
  | unknown => exact unknown
  | nothing => exact nothing
  | var p => exact var p c
  | cls d => exact cls d c h.of_cls
  | module i n => exact module i n c
  | typeAlias d => exact typeAlias d c h.of_typeAlias
  | literal s => exact literal s c
  | union l r => exact union c (h l r _ .self) h.of_left h.of_right

theorem addConstraints (h : Sides R t) (c : Constraints) : Sides R (t.addConstraints c) :=
  h.withConstraints _

theorem mono (h : Sides R t) (hRS : ∀ l r, R l r → S l r) : Sides S t :=
  fun l r c hp => hRS l r (h l r c hp)

mutual
/-- Substitution changes the sides of the unions that are there, and puts in those of what is
bound. -/
theorem bind {b : Bindings} (hb : ∀ p x, b.get? p = some x → Sides S x) : ∀ {t : Ty},
    (∀ l r c, Part (.union l r c) t → S (l.bind b) (r.bind b)) → Sides S (t.bind b)
  | .unknown, _ => unknown
  | .nothing, _ => nothing
  | .var p c, _ => by
    rw [Ty.bind]
    cases hx : b.get? p with
    | none => exact var p c
    | some x => exact (hb p x hx).addConstraints c
  | .cls d as c, h => cls d c (bindAll hb (fun _ ha l r k hp => h l r k (.arg ha hp)))
  | .module i n c, _ => module i n c
  | .typeAlias d as c, h => typeAlias d c (bindAll hb (fun _ ha l r k hp => h l r k (.aliasArg ha hp)))
  | .literal s c, _ => literal s c
  | .union l r c, h => union c (h l r c .self) (bind hb (fun _ _ _ hp => h _ _ _ (.left hp)))
      (bind hb (fun _ _ _ hp => h _ _ _ (.right hp)))
theorem bindAll {b : Bindings} (hb : ∀ p x, b.get? p = some x → Sides S x) : ∀ {as : List Ty},
    (∀ a ∈ as, ∀ l r c, Part (.union l r c) a → S (l.bind b) (r.bind b)) →
      ∀ x ∈ Ty.bindAll b as, Sides S x
  | [], _ => nofun
  | a :: as, h => fun x hx => by
    rcases List.mem_cons.1 hx with rfl | hx
    · exact bind hb (h a List.mem_cons_self)
    · exact bindAll hb (fun a ha => h a (List.mem_cons_of_mem _ ha)) x hx
end

end Sides

end Ty

/-! ## Building types -/

namespace Ty.Sides

open Query

variable {P : (q : Question) → q.Answer → Prop} {R : Ty → Ty → Prop}

theorem within_fitArgs (d : NodeRef) {as : List Ty} (h : ∀ a ∈ as, Sides R a) :
    (fitArgs d as).Within P (fun bs => ∀ b ∈ bs, Sides R b) := by
  refine .after (fun ps => within_pure (fun b hb => ?_))
  rcases List.mem_append.1 hb with hb | hb
  · exact h b (List.mem_of_mem_take hb)
  · exact List.eq_of_mem_replicate hb ▸ .unknown

/-- Types are built so that the sides of unions are related, if all types that can become sides
are. -/
theorem built (hR : ∀ {l r : Ty}, l.Proper → r.Proper → R l r) : Built P (Sides R) where
  unknown := .unknown
  nothing := .nothing
  var p := .var p []
  module m name := .module m name []
  literal s := .literal s []
  standard _ h := .cls _ [] h
  union hl hr := .union [] (hR hl hr)
  withConstraints c h := h.withConstraints c
  ofClass d _ h := (within_fitArgs d h).bind (fun _ hbs => within_pure (.cls d [] hbs))
  ofAlias d _ h := (within_fitArgs d h).bind (fun _ hbs => within_pure (.typeAlias d [] hbs))

end Ty.Sides

end PklAnalysis
