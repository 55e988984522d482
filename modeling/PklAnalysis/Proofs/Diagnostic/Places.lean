import PklAnalysis.Diagnostic.Catalogue
import PklAnalysis.Proofs.Text.Pieces
import Mathlib.Data.List.Infix
import Std.Data.String.ToNat

/-!
# Arguments of messages

The places of a text are filled one after the other, so what an argument brings into the text is
searched for the places of the arguments behind it. `filled` fills all places at once. The two agree
as long as the arguments in front of an argument bring no place for it into the text
(`formatMessage_verbatim`). The texts of the catalogue keep their places apart, and there only an
argument that itself holds the place of a later one can do so (`message_verbatim`).
-/

namespace PklAnalysis

variable {part replacement a b cs text : List Char} {args : List String} {c : Char} {i j k n : Nat}

/-- Fill all places of a text at once. `skip` characters belong to a place that was just filled. -/
def filled (args : List String) (skip : Nat) : List Char → List Char
  | [] => []
  | c :: cs =>
    if 0 < skip then filled args (skip - 1) cs
    else match args.zipIdx.find? fun (_, i) => (place i).isPrefixOf (c :: cs) with
      | some (arg, i) => arg.toList ++ filled args ((place i).length - 1) cs
      | none => c :: filled args 0 cs

/-- How often a part stands in a text. -/
def occurrences (part : List Char) : List Char → Nat
  | [] => 0
  | c :: cs => occurrences part cs + if part.isPrefixOf (c :: cs) then 1 else 0

/-- The arguments in front of an argument bring no place for it into the text. -/
def Undisturbed (text : List Char) (args : List String) : Prop :=
  ∀ k < args.length, occurrences (place k) (filled (args.take k) 0 text) = occurrences (place k) text

instance (text : List Char) (args : List String) : Decidable (Undisturbed text args) :=
  inferInstanceAs (Decidable (∀ k < args.length, _ = _))

/-! ## Places -/

theorem place_eq (i : Nat) : place i = '\x7b' :: ((toString i).toList ++ ['\x7d']) := rfl

theorem place_ne_nil (i : Nat) : place i ≠ [] := List.cons_ne_nil _ _

/-- A place ends at the first closing brace, so a text starts with one place at most. -/
theorem place_unique (h : place i <+: place j ++ cs) : i = j := by
  obtain ⟨rest, e⟩ := h
  have brace (n : Nat) (rest : List Char) : Text.cut '\x7d' (place n ++ rest) =
      some ('\x7b' :: (toString n).toList, rest) := by
    rw [place_eq, List.cons_append, List.append_assoc, List.singleton_append, ← List.cons_append]
    refine Text.cut_append rest ?_
    rw [List.mem_cons, not_or]
    exact ⟨by decide, Text.notMem_number rfl⟩
  have numbers := (brace i rest).symm.trans (e ▸ brace j cs)
  obtain ⟨same, -⟩ := Prod.mk.inj (Option.some.inj numbers)
  exact Nat.repr_inj.1 (String.toList_inj.1 (List.cons.inj same).2)

theorem head_of_place (h : place i <+: c :: cs) : c = '\x7b' := by
  obtain ⟨rest, e⟩ := h
  exact (List.cons.inj e).1.symm

/-- Behind its opening brace a place has none. -/
theorem exists_place_tail (i : Nat) : ∃ tail, place i = '\x7b' :: tail ∧ '\x7b' ∉ tail := by
  refine ⟨_, place_eq i, ?_⟩
  rw [List.mem_append, not_or]
  exact ⟨Text.notMem_number rfl, by decide⟩

/-- A text is read place by place: the places of the numbers below `n`, and single characters. -/
theorem place_induction {motive : List Char → Prop} (n : Nat) (nil : motive [])
    (filling : ∀ i < n, ∀ cs, motive cs → motive (place i ++ cs))
    (other : ∀ c cs, (∀ i < n, ¬ place i <+: c :: cs) → motive cs → motive (c :: cs))
    (text : List Char) : motive text := by
  induction h : text.length using Nat.strongRecOn generalizing text with
  | _ m ih =>
    cases text with
    | nil => exact nil
    | cons c cs =>
      by_cases found : ∃ i < n, place i <+: c :: cs
      · obtain ⟨i, hi, rest, e⟩ := found
        rw [← e] at h ⊢
        have shorter : rest.length < m := by
          rw [← h, List.length_append, place_eq, List.length_cons]
          omega
        exact filling i hi rest (ih rest.length shorter rest rfl)
      · have shorter : cs.length < m := by rw [← h]; exact Nat.lt_succ_self _
        exact other c cs (fun i hi h => found ⟨i, hi, h⟩) (ih cs.length shorter cs rfl)

/-! ## Replacing -/

theorem replaceAll_skip (n : Nat) (cs : List Char) :
    replaceAll part replacement n cs = replaceAll part replacement 0 (cs.drop n) := by
  induction cs generalizing n with
  | nil => rw [List.drop_nil, replaceAll, replaceAll]
  | cons c cs ih =>
    cases n with
    | zero => rfl
    | succ n => rw [replaceAll, if_pos n.succ_pos, List.drop_succ_cons, Nat.add_sub_cancel, ih]

theorem replaceAll_part (hp : part ≠ []) (cs : List Char) :
    replaceAll part replacement 0 (part ++ cs) =
      replacement ++ replaceAll part replacement 0 cs := by
  obtain ⟨c, part, rfl⟩ := List.exists_cons_of_ne_nil hp
  have here : (c :: part).isPrefixOf (c :: (part ++ cs)) = true :=
    List.isPrefixOf_iff_prefix.2 ⟨cs, rfl⟩
  rw [List.cons_append, replaceAll, if_neg (Nat.lt_irrefl 0), if_pos here, replaceAll_skip,
    List.length_cons, Nat.add_sub_cancel, List.drop_left]

theorem replaceAll_other (h : ¬ part <+: c :: cs) :
    replaceAll part replacement 0 (c :: cs) = c :: replaceAll part replacement 0 cs := by
  rw [replaceAll, if_neg (Nat.lt_irrefl 0), if_neg fun hp => h (List.isPrefixOf_iff_prefix.1 hp)]

/-! ## Counting -/

theorem occurrences_cons (part : List Char) (c : Char) (cs : List Char) :
    occurrences part (c :: cs) =
      occurrences part cs + if part.isPrefixOf (c :: cs) then 1 else 0 := rfl

theorem occurrences_other (h : ¬ part <+: c :: cs) :
    occurrences part (c :: cs) = occurrences part cs := by
  rw [occurrences_cons, if_neg fun hp => h (List.isPrefixOf_iff_prefix.1 hp), Nat.add_zero]

theorem occurrences_le_append (part a b : List Char) :
    occurrences part b ≤ occurrences part (a ++ b) := by
  induction a with
  | nil => exact Nat.le_refl _
  | cons c a ih => exact Nat.le_trans ih (Nat.le_add_right _ _)

/-- If a text in front adds no occurrence, nothing in it is replaced. -/
theorem replaceAll_append (h : occurrences part (a ++ b) = occurrences part b) :
    replaceAll part replacement 0 (a ++ b) = a ++ replaceAll part replacement 0 b := by
  induction a with
  | nil => rfl
  | cons c a ih =>
    have rest := occurrences_le_append part a b
    rw [List.cons_append, occurrences_cons] at h
    split at h
    · omega
    · next other =>
      rw [List.cons_append, replaceAll_other fun hp => other (List.isPrefixOf_iff_prefix.2 hp),
        ih h, List.cons_append]

/-- A text without an opening brace in front adds no place. -/
theorem occurrences_append (h : '\x7b' ∉ a) (b : List Char) :
    occurrences (place k) (a ++ b) = occurrences (place k) b := by
  induction a with
  | nil => rfl
  | cons c a ih =>
    rw [List.mem_cons, not_or] at h
    rw [List.cons_append, occurrences_other fun hp => h.1 (head_of_place hp).symm, ih h.2]

theorem occurrences_place (k i : Nat) (cs : List Char) :
    occurrences (place k) (place i ++ cs) =
      occurrences (place k) cs + if k = i then 1 else 0 := by
  obtain ⟨tail, e, brace⟩ := exists_place_tail i
  by_cases hk : k = i
  · have here : (place k).isPrefixOf ('\x7b' :: (tail ++ cs)) = true :=
      List.isPrefixOf_iff_prefix.2 ⟨cs, by rw [hk, e]; rfl⟩
    rw [e, List.cons_append, occurrences_cons, if_pos here, occurrences_append brace, if_pos hk]
  · have here : ¬ place k <+: '\x7b' :: (tail ++ cs) := by
      rw [← List.cons_append, ← e]
      exact fun hp => hk (place_unique hp)
    rw [e, List.cons_append, occurrences_other here, occurrences_append brace, if_neg hk,
      Nat.add_zero]

/-! ## Filling -/

theorem filled_skip (n : Nat) (cs : List Char) : filled args n cs = filled args 0 (cs.drop n) := by
  induction cs generalizing n with
  | nil => rw [List.drop_nil, filled, filled]
  | cons c cs ih =>
    cases n with
    | zero => rfl
    | succ n => rw [filled, if_pos n.succ_pos, List.drop_succ_cons, Nat.add_sub_cancel, ih]

theorem filled_other (h : ∀ i < args.length, ¬ place i <+: c :: cs) :
    filled args 0 (c :: cs) = c :: filled args 0 cs := by
  have none : args.zipIdx.find? (fun (_, i) => (place i).isPrefixOf (c :: cs)) = none := by
    rw [List.find?_eq_none]
    rintro ⟨arg, i⟩ hm hp
    exact h i (List.snd_lt_of_mem_zipIdx hm) (List.isPrefixOf_iff_prefix.1 hp)
  rw [filled, if_neg (Nat.lt_irrefl 0), none]

theorem filled_place (hi : i < args.length) (cs : List Char) :
    filled args 0 (place i ++ cs) = args[i].toList ++ filled args 0 cs := by
  obtain ⟨tail, e, -⟩ := exists_place_tail i
  have found : args.zipIdx.find? (fun (_, j) => (place j).isPrefixOf ('\x7b' :: (tail ++ cs))) =
      some (args[i], i) := by
    rw [← List.cons_append, ← e]
    refine List.find?_eq_some_iff_getElem.2 ⟨List.isPrefixOf_iff_prefix.2 ⟨cs, rfl⟩, i, ?_, ?_, ?_⟩
    · rwa [List.length_zipIdx]
    · rw [List.getElem_zipIdx, Nat.zero_add]
    · intro j hj
      rw [List.getElem_zipIdx, Bool.not_eq_true', Bool.eq_false_iff, Nat.zero_add]
      intro hp
      exact absurd (place_unique (List.isPrefixOf_iff_prefix.1 hp)) (by omega)
  rw [e, List.cons_append, filled, if_neg (Nat.lt_irrefl 0), found]
  dsimp only
  rw [filled_skip, e, List.length_cons, Nat.add_sub_cancel, List.drop_left]

/-- A text without an opening brace has nothing to fill. -/
theorem filled_append (h : '\x7b' ∉ a) (b : List Char) :
    filled args 0 (a ++ b) = a ++ filled args 0 b := by
  induction a with
  | nil => rfl
  | cons c a ih =>
    rw [List.mem_cons, not_or] at h
    rw [List.cons_append, filled_other fun i _ hp => h.1 (head_of_place hp).symm, ih h.2,
      List.cons_append]

/-- A place for which there is no argument is kept. -/
theorem filled_kept (hi : args.length ≤ i) (cs : List Char) :
    filled args 0 (place i ++ cs) = place i ++ filled args 0 cs := by
  obtain ⟨tail, e, brace⟩ := exists_place_tail i
  have other : ∀ j < args.length, ¬ place j <+: '\x7b' :: (tail ++ cs) := by
    intro j hj hp
    rw [← List.cons_append, ← e] at hp
    exact absurd (place_unique hp) (by omega)
  rw [e, List.cons_append, filled_other other, filled_append brace, List.cons_append]

/-- Filling places brings others into the text, but takes none of them away. -/
theorem occurrences_le_filled (hk : args.length ≤ k) (text : List Char) :
    occurrences (place k) text ≤ occurrences (place k) (filled args 0 text) := by
  induction text using place_induction args.length with
  | nil => exact Nat.le_refl _
  | filling i hi cs ih =>
    rw [occurrences_place, if_neg (by omega), filled_place hi]
    exact Nat.le_trans ih (occurrences_le_append _ _ _)
  | other c cs h ih =>
    rw [filled_other h, occurrences_cons, occurrences_cons]
    refine Nat.add_le_add ih ?_
    split
    · next here =>
      -- the place at the front is still there
      obtain ⟨rest, e⟩ := List.isPrefixOf_iff_prefix.1 here
      have kept : (place k).isPrefixOf (c :: filled args 0 cs) = true := by
        rw [← filled_other h, ← e, filled_kept hk]
        exact List.isPrefixOf_iff_prefix.2 ⟨_, rfl⟩
      exact Nat.le_of_eq (if_pos kept).symm
    · exact Nat.zero_le _

/-- Filling a place after the ones before it is filling them together, if those bring in no other
place of its number. -/
theorem replaceAll_filled (hk : k < args.length) (text : List Char)
    (h : occurrences (place k) (filled (args.take k) 0 text) = occurrences (place k) text) :
    replaceAll (place k) args[k].toList 0 (filled (args.take k) 0 text) =
      filled (args.take (k + 1)) 0 text := by
  have before : (args.take k).length = k := by rw [List.length_take]; omega
  have after : (args.take (k + 1)).length = k + 1 := by rw [List.length_take]; omega
  induction text using place_induction (k + 1) with
  | nil => rfl
  | filling i hi cs ih =>
    have longer : filled (args.take (k + 1)) 0 (place i ++ cs) =
        args[i].toList ++ filled (args.take (k + 1)) 0 cs := by
      rw [filled_place (by omega), List.getElem_take]
    rw [longer]
    by_cases hik : i = k
    · subst hik
      rw [filled_kept (Nat.le_of_eq before)] at h ⊢
      rw [occurrences_place, occurrences_place, Nat.add_right_cancel_iff] at h
      rw [replaceAll_part (place_ne_nil i), ih h]
    · have hi : i < (args.take k).length := by omega
      rw [filled_place hi, List.getElem_take] at h ⊢
      rw [occurrences_place, if_neg (Ne.symm hik), Nat.add_zero] at h
      -- the argument brings in nothing, and so does what is filled behind it
      have rest := occurrences_le_filled (Nat.le_of_eq before) cs
      have front := occurrences_le_append (place k) args[i].toList (filled (args.take k) 0 cs)
      rw [replaceAll_append (by omega), ih (by omega)]
  | other c cs none ih =>
    have kept : filled (args.take k) 0 (c :: cs) = c :: filled (args.take k) 0 cs :=
      filled_other fun i hi => none i (by omega)
    have kept' : filled (args.take (k + 1)) 0 (c :: cs) = c :: filled (args.take (k + 1)) 0 cs :=
      filled_other fun i hi => none i (by omega)
    rw [kept, occurrences_other (none k (Nat.lt_succ_self k)), occurrences_cons] at h
    rw [kept, kept']
    have rest := occurrences_le_filled (Nat.le_of_eq before) cs
    split at h
    · omega
    · next other =>
      rw [replaceAll_other fun hp => other (List.isPrefixOf_iff_prefix.2 hp), ih h]

theorem filled_nil (text : List Char) : filled [] 0 text = text := by
  induction text with
  | nil => rfl
  | cons c cs ih => rw [filled_other fun _ hi => absurd hi (Nat.not_lt_zero _), ih]

/-- Filling the places one after the other, from place `k` on. -/
theorem fillFrom_filled (h : Undisturbed text args) (hn : k + n = args.length) :
    fillFrom k (filled (args.take k) 0 text) (args.drop k) = filled args 0 text := by
  induction n generalizing k with
  | zero =>
    obtain rfl : k = args.length := hn
    rw [List.drop_length, List.take_length, fillFrom]
  | succ n ih =>
    have hk : k < args.length := by omega
    rw [List.drop_eq_getElem_cons hk, fillFrom, replaceAll_filled hk text (h k hk)]
    exact ih (by omega)

theorem fillFrom_zero (h : Undisturbed text args) : fillFrom 0 text args = filled args 0 text := by
  have all := fillFrom_filled (k := 0) (n := args.length) h (Nat.zero_add _)
  rwa [List.take_zero, List.drop_zero, filled_nil] at all

/-! ## Places that are kept apart -/

/-- A character that no place has. -/
def separates (c : Char) : Bool := !c.isDigit && c != '\x7b' && c != '\x7d'

/-- Every opening brace of the text opens a place with a number below `n`, and what stands behind a
place separates it from the next one. -/
def Spaced (n : Nat) (text : List Char) : Prop :=
  ∀ s ∈ text.tails, s.head? = some '\x7b' →
    ∃ i < n, place i <+: s ∧ (s.drop (place i).length).head?.all separates = true

instance (n : Nat) (text : List Char) : Decidable (Spaced n text) :=
  inferInstanceAs (Decidable (∀ s ∈ text.tails, s.head? = some '\x7b' →
    ∃ i < n, place i <+: s ∧ (s.drop (place i).length).head?.all separates = true))

theorem notMem_place (h : separates c = true) (i : Nat) : c ∉ place i := by
  simp only [separates, Bool.and_eq_true, Bool.not_eq_true', bne_iff_ne] at h
  obtain ⟨⟨digit, opening⟩, closing⟩ := h
  rw [place_eq, List.mem_cons, List.mem_append, List.mem_singleton, not_or, not_or]
  exact ⟨opening, Text.notMem_number digit, closing⟩

theorem Spaced.append (h : Spaced n (a ++ b)) : Spaced n b := by
  intro s hs
  exact h s ((List.mem_tails _ _).2 (((List.mem_tails _ _).1 hs).trans (List.suffix_append a b)))

theorem Spaced.behind (h : Spaced n (place i ++ b)) : b.head?.all separates = true := by
  obtain ⟨j, -, hj, apart⟩ := h (place i ++ b) ((List.mem_tails _ _).2 List.suffix_rfl) rfl
  obtain rfl := place_unique hj
  rwa [List.drop_left] at apart

/-- What separates cuts a place off from the text behind it. -/
theorem occurrences_separated (ha : ¬ place k <:+: a) (hb : b.head?.all separates = true) :
    occurrences (place k) (a ++ b) = occurrences (place k) b := by
  induction a with
  | nil => rfl
  | cons c a ih =>
    have other : ¬ place k <+: c :: (a ++ b) := by
      intro hp
      rcases List.prefix_or_prefix_of_prefix hp (List.prefix_append (c :: a) b) with inside | ⟨d, hd⟩
      · exact ha inside.isInfix
      · rw [← hd, ← List.cons_append, List.prefix_append_right_inj] at hp
        cases d with
        | nil => exact ha ⟨[], [], by rw [← hd]; simp⟩
        | cons x d =>
          obtain ⟨rest, rfl⟩ := hp
          exact notMem_place hb k (hd ▸ List.mem_append_right _ List.mem_cons_self)
    rw [List.cons_append, occurrences_other other]
    exact ih fun h => ha (h.trans (List.suffix_cons c a).isInfix)

/-- In a text that keeps its places apart, only an argument that holds the place of a later one can
bring it in. -/
theorem Spaced.undisturbed (hs : Spaced n text)
    (h : ∀ i j (_ : i < j) (_ : j < args.length), ¬ place j <:+: args[i].toList) :
    Undisturbed text args := by
  intro k hk
  have before : (args.take k).length = k := by rw [List.length_take]; omega
  induction text using place_induction k with
  | nil => rfl
  | filling i hi cs ih =>
    have behind : (filled (args.take k) 0 cs).head?.all separates = true := by
      cases cs with
      | nil => rfl
      | cons c cs =>
        have apart : separates c = true := hs.behind
        have brace : c ≠ '\x7b' := fun e => notMem_place apart 0 (e ▸ List.mem_cons_self)
        rw [filled_other fun _ _ hp => brace (head_of_place hp)]
        exact apart
    rw [occurrences_place, if_neg (by omega), filled_place (by omega), List.getElem_take,
      occurrences_separated (h i k hi hk) behind, ih hs.append, Nat.add_zero]
  | other c cs none ih =>
    have none' : ∀ i < (args.take k).length, ¬ place i <+: c :: cs :=
      fun i hi => none i (by omega)
    have rest := ih (hs.append (a := [c]))
    by_cases brace : c = '\x7b'
    · -- the place that is opened here is kept, whatever its number
      subst brace
      obtain ⟨i, -, ⟨tail, e⟩, -⟩ := hs _ ((List.mem_tails _ _).2 List.suffix_rfl) rfl
      obtain ⟨inner, ei, hi⟩ := exists_place_tail i
      rw [ei] at e
      obtain rfl : inner ++ tail = cs := (List.cons.inj e).2
      rw [← ei] at e
      have later : k ≤ i := by
        by_contra hi
        exact none i (by omega) ⟨tail, e⟩
      rw [filled_append hi, occurrences_append hi, occurrences_append hi] at rest
      rw [← e, filled_kept (by omega), occurrences_place, occurrences_place, rest]
    · rw [filled_other none', occurrences_other fun hp => brace (head_of_place hp),
        occurrences_other fun hp => brace (head_of_place hp), rest]

theorem Spaced.toList_ofList (h : Spaced n text) : Spaced n (String.ofList text).toList := by
  rwa [String.toList_ofList]

/-- The texts of the catalogue keep their places apart. -/
theorem spaced_catalogue : ∀ template ∈ Template.catalogue, Spaced 2 template.text.toList := by
  simp only [Template.catalogue, List.forall_mem_cons, List.not_mem_nil, false_implies,
    implies_true, and_true]
  and_intros
  -- the characters of a literal are read off, the check runs on them
  all_goals exact Spaced.toList_ofList (by decide +kernel)

/-! ## Messages -/

/-- The arguments stand in a message as they are, where the template has their places, if filling in
those in front of an argument brings no place for it into the text. -/
theorem formatMessage_verbatim (text : String) {args : List String}
    (h : Undisturbed text.toList args) :
    formatMessage text args = String.ofList (filled args 0 text.toList) := by
  rw [formatMessage, fillFrom_zero h]

/-- Places of earlier arguments and of the argument itself do no harm. -/
theorem formatMessage_verbatim_quoted :
    Undisturbed Template.typeMismatch.text.toList ["\"\x7b0\x7d\"", "\"\x7b0\x7d\x7b1\x7d\""] ∧
      formatMessage Template.typeMismatch.text ["\"\x7b0\x7d\"", "\"\x7b0\x7d\x7b1\x7d\""] =
        "Type mismatch.\nRequired: \"\x7b0\x7d\"\nActual: \"\x7b0\x7d\x7b1\x7d\"" := by
  have h : Undisturbed Template.typeMismatch.text.toList
      ["\"\x7b0\x7d\"", "\"\x7b0\x7d\x7b1\x7d\""] := by decide +kernel
  refine ⟨h, (formatMessage_verbatim _ h).trans ?_⟩
  decide +kernel

/-- The type of a string that looks like a place is replaced by the other type. -/
theorem formatMessage_refilled :
    formatMessage Template.typeMismatch.text ["\"\x7b1\x7d\"", "Int"] =
        "Type mismatch.\nRequired: \"Int\"\nActual: Int" ∧
      String.ofList (filled ["\"\x7b1\x7d\"", "Int"] 0 Template.typeMismatch.text.toList) =
        "Type mismatch.\nRequired: \"\x7b1\x7d\"\nActual: Int" := by
  decide +kernel

/-- In a diagnostic of the catalogue the arguments stand as they are, unless one of them holds the
place of a later one. -/
theorem message_verbatim {template : Template} (ht : template ∈ Template.catalogue) (span : Span)
    (h : ∀ i j (_ : i < j) (_ : j < args.length), ¬ place j <:+: args[i].toList) :
    (Diagnostic.of span template args).message =
      String.ofList (filled args 0 template.text.toList) := by
  have h := (spaced_catalogue template ht).undisturbed h
  show String.ofList (fillFrom 0 template.text.toList args) = _
  rw [fillFrom_zero h]

end PklAnalysis
