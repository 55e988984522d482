import PklAnalysis.Text.Quoted

/-!
# What the text of a type tells

A `Form` is what can be read off the text of a type: names with their arguments, texts between
quotes, arrows, question marks, and alternatives in their order, of whatever unions they are. Names
are kept apart from the rest by not containing any of the `marks`.

Reading the text of a form gives the form (`Readable.read_text`), so no text is that of two forms
(`Readable.text_injective`).
-/

namespace PklAnalysis

/-- The type that a text denotes, as far as the text says. -/
inductive Form where
  | unknown
  | nothing
  | quoted (text : List Char)
  | named (module name : List Char) (args : List Form)
  | arrow (params : List Form) (result : Form)
  | optional (form : Form)
  | choice (alternatives : List Form)

namespace Form

def isArrow : Form → Bool
  | .arrow _ _ => true
  | _ => false

def isChoice : Form → Bool
  | .choice _ => true
  | _ => false

/-- Whether the text is put in parentheses before a question mark. -/
def isGrouped : Form → Bool
  | .arrow _ _ | .optional _ | .choice _ => true
  | _ => false

def inParens (cs : List Char) : List Char := '(' :: (cs ++ [')'])

mutual
/-- The text of a form. -/
def text : Form → List Char
  | .unknown => ['u', 'n', 'k', 'n', 'o', 'w', 'n']
  | .nothing => ['n', 'o', 't', 'h', 'i', 'n', 'g']
  | .quoted s => Text.quotedChars s
  | .named m d as => m ++ '#' :: (d ++ if as.isEmpty then [] else '<' :: (listText as ++ ['>']))
  | .arrow ps r => inParens (listText ps) ++ ' ' :: '-' :: '>' :: ' ' :: text r
  | .optional f => (if f.isGrouped then inParens (text f) else text f) ++ ['?']
  | .choice fs => choiceText fs
/-- The texts of several forms, with commas between them. -/
def listText : List Form → List Char
  | [] => []
  | f :: fs => text f ++ if fs.isEmpty then [] else ',' :: ' ' :: listText fs
/-- The text of alternatives. -/
def choiceText : List Form → List Char
  | [] => []
  | f :: fs => (if f.isArrow then inParens (text f) else text f) ++
      if fs.isEmpty then [] else '|' :: choiceText fs
end

/-! ## Names -/

/-- The characters that keep the parts of a text apart. -/
def marks : List Char := ['#', '<', '>', ',', '|', '?', '(', ')', '"', ' ']

def isPlain (c : Char) : Bool := !marks.contains c

/-- Names without marks in them. Dotted identifiers are such names. -/
def Plain (cs : List Char) : Prop := ∀ c ∈ cs, isPlain c = true

instance (cs : List Char) : Decidable (Plain cs) := List.decidableBAll (isPlain · = true) cs

/-- The names in the form are plain, and alternatives are several, none of which is made of
alternatives itself. -/
inductive Readable : Form → Prop
  | unknown : Readable .unknown
  | nothing : Readable .nothing
  | quoted (s : List Char) : Readable (.quoted s)
  | named {m d : List Char} {as : List Form} :
      Plain m → Plain d → (∀ a ∈ as, Readable a) → Readable (.named m d as)
  | arrow {ps : List Form} {r : Form} :
      (∀ p ∈ ps, Readable p) → Readable r → Readable (.arrow ps r)
  | optional {f : Form} : Readable f → Readable (.optional f)
  | choice {f g : Form} {fs : List Form} : (∀ x ∈ f :: g :: fs, Readable x) →
      (∀ x ∈ f :: g :: fs, x.isChoice = false) → Readable (.choice (f :: g :: fs))

/-! ## Alternatives -/

/-- What there are bars between in the text of a form. -/
def alternatives : Form → List Form
  | .choice fs => fs
  | f => [f]

theorem alternatives_eq {f : Form} (h : f.isChoice = false) : f.alternatives = [f] := by
  cases f with
  | choice => cases h
  | _ => rfl

theorem choiceText_alternatives (f : Form) :
    choiceText f.alternatives = if f.isArrow then inParens f.text else f.text := by
  cases f with
  | choice fs =>
    rw [text]
    rfl
  | _ => exact List.append_nil _

theorem choiceText_append {fs gs : List Form} (hf : fs ≠ []) (hg : gs ≠ []) :
    choiceText (fs ++ gs) = choiceText fs ++ '|' :: choiceText gs := by
  induction fs with
  | nil => exact absurd rfl hf
  | cons f fs ih =>
    rw [List.cons_append, choiceText, choiceText, List.append_assoc]
    cases fs with
    | nil =>
      obtain ⟨g, gs, rfl⟩ := List.exists_cons_of_ne_nil hg
      rfl
    | cons f' fs => rw [ih (List.cons_ne_nil f' fs)]; rfl

theorem Readable.alternatives {f : Form} (h : Readable f) :
    f.alternatives ≠ [] ∧ ∀ x ∈ f.alternatives, Readable x ∧ x.isChoice = false := by
  cases h with
  | choice hx single => exact ⟨nofun, fun x m => ⟨hx x m, single x m⟩⟩
  | unknown => exact ⟨nofun, List.forall_mem_singleton.2 ⟨.unknown, rfl⟩⟩
  | nothing => exact ⟨nofun, List.forall_mem_singleton.2 ⟨.nothing, rfl⟩⟩
  | quoted s => exact ⟨nofun, List.forall_mem_singleton.2 ⟨.quoted s, rfl⟩⟩
  | named hm hd has => exact ⟨nofun, List.forall_mem_singleton.2 ⟨.named hm hd has, rfl⟩⟩
  | arrow hps hr => exact ⟨nofun, List.forall_mem_singleton.2 ⟨.arrow hps hr, rfl⟩⟩
  | optional hf => exact ⟨nofun, List.forall_mem_singleton.2 ⟨.optional hf, rfl⟩⟩

/-- Alternatives may be put behind others, of however many forms each. -/
theorem Readable.choice_append {f g : Form} (hf : Readable f) (hg : Readable g) :
    Readable (.choice (f.alternatives ++ g.alternatives)) := by
  obtain ⟨nf, af⟩ := hf.alternatives
  obtain ⟨ng, ag⟩ := hg.alternatives
  have all := List.forall_mem_append.2 ⟨af, ag⟩
  obtain ⟨x, xs, hx⟩ := List.exists_cons_of_ne_nil nf
  obtain ⟨y, ys, hy⟩ := List.exists_cons_of_ne_nil (List.append_ne_nil_of_right_ne_nil xs ng)
  rw [hx, List.cons_append, hy] at all ⊢
  exact .choice (fun z hz => (all z hz).1) (fun z hz => (all z hz).2)

/-! ## The reader -/

def unescape (c : Char) : Char := if c = 'n' then '\n' else if c = 't' then '\t' else c

/-- The text up to the closing quote. -/
def unquote : List Char → Option (List Char × List Char)
  | [] => none
  | '"' :: cs => some ([], cs)
  | '\\' :: c :: cs => (unquote cs).map (fun p => (unescape c :: p.1, p.2))
  | c :: cs => (unquote cs).map (fun p => (c :: p.1, p.2))

section

variable (read : List Char → Option (Form × List Char))

/-- Forms with commas between them, up to a closing character; at most `n` of them. -/
def listOf (close : Char) : Nat → List Char → Option (List Form × List Char)
  | 0, _ => none
  | n + 1, cs =>
    if cs.head? = some close then some ([], cs.tail)
    else
      match read cs with
      | some (f, ',' :: ' ' :: cs) => (listOf close n cs).map (fun p => (f :: p.1, p.2))
      | some (f, cs) => if cs.head? = some close then some ([f], cs.tail) else none
      | none => none

/-- The name of a declaration of the module, with its arguments. -/
def declaredOf (n : Nat) (m cs : List Char) : Option (Form × List Char) :=
  match cs.dropWhile isPlain with
  | '<' :: rest =>
    (listOf read '>' n rest).map (fun p => (.named m (cs.takeWhile isPlain) p.1, p.2))
  | rest => some (.named m (cs.takeWhile isPlain) [], rest)

/-- What begins with a name. -/
def nameOf (n : Nat) (cs : List Char) : Option (Form × List Char) :=
  match cs.dropWhile isPlain with
  | '#' :: rest => declaredOf read n (cs.takeWhile isPlain) rest
  | rest => some (if cs.takeWhile isPlain = text .unknown then .unknown else .nothing, rest)

/-- What stands in front of a question mark or beside a bar. -/
def primaryOf (n : Nat) (cs : List Char) : Option (Form × List Char) :=
  if cs.head? = some '"' then (unquote cs.tail).map (fun p => (.quoted p.1, p.2))
  else if cs.head? = some '(' then
    match listOf read ')' n cs.tail with
    | some (ps, ' ' :: '-' :: '>' :: ' ' :: cs) => (read cs).map (fun p => (.arrow ps p.1, p.2))
    | some (ps, cs) => ps.head?.map (fun f => (f, cs))
    | none => none
  else nameOf read n cs

/-- The same with the question mark, if there is one. -/
def alternativeOf (n : Nat) (cs : List Char) : Option (Form × List Char) :=
  (primaryOf read n cs).map (fun
    | (f, '?' :: cs) => (.optional f, cs)
    | p => p)

/-- Alternatives with bars between them, at most `k`. -/
def choiceOf (n : Nat) : Nat → List Char → Option (List Form × List Char)
  | 0, _ => none
  | k + 1, cs =>
    match alternativeOf read n cs with
    | some (f, '|' :: cs) => (choiceOf n k cs).map (fun p => (f :: p.1, p.2))
    | some (f, cs) => some ([f], cs)
    | none => none

end

/-- Several alternatives are a choice. -/
def ofAlternatives : List Form → Form
  | [f] => f
  | fs => .choice fs

/-- Read a form of which at most `n` are nested and listed. -/
def read : Nat → List Char → Option (Form × List Char)
  | 0, _ => none
  | n + 1, cs => (choiceOf (read n) n n cs).map (fun p => (ofAlternatives p.1, p.2))

/-! ## Reading texts -/

/-- What can follow the text of a type. -/
def Stops (cs : List Char) : Prop := ∀ c ∈ cs.head?, c ∈ [',', '>', ')']

/-- What can follow an alternative. -/
def Parts (cs : List Char) : Prop := ∀ c ∈ cs.head?, c ∈ ['|', ',', '>', ')']

/-- What can follow a name or a parenthesis. -/
def Follows (cs : List Char) : Prop := ∀ c ∈ cs.head?, c ∈ ['?', '|', ',', '>', ')']

theorem Stops.parts {cs : List Char} (h : Stops cs) : Parts cs :=
  fun c hc => List.mem_cons_of_mem _ (h c hc)

theorem Parts.follows {cs : List Char} (h : Parts cs) : Follows cs :=
  fun c hc => List.mem_cons_of_mem _ (h c hc)

theorem stops_cons {c : Char} (h : c ∈ [',', '>', ')']) (cs : List Char) : Stops (c :: cs) := by
  rintro _ ⟨⟩
  exact h

theorem unquote_escape (c : Char) (cs : List Char) :
    unquote (Text.escape c ++ cs) = (unquote cs).map (fun p => (c :: p.1, p.2)) := by
  unfold Text.escape
  split
  · next h =>
    subst h
    rfl
  split
  · next h =>
    subst h
    rfl
  split
  · next h =>
    subst h
    rfl
  split
  · next h =>
    subst h
    rfl
  · next hq hb _ _ =>
    rw [List.singleton_append, unquote]
    · exact fun h => hq h
    · exact fun _ _ h => absurd h hb

theorem unquote_quoted (s rest : List Char) :
    unquote (s.flatMap Text.escape ++ '"' :: rest) = some (s, rest) := by
  induction s with
  | nil => rfl
  | cons c s ih =>
    rw [List.flatMap_cons, List.append_assoc, unquote_escape, ih]
    rfl

theorem takeWhile_plain {w rest : List Char} (hw : Plain w) (hr : ∀ c ∈ rest.head?, c ∈ marks) :
    (w ++ rest).takeWhile isPlain = w ∧ (w ++ rest).dropWhile isPlain = rest := by
  have stop : rest.takeWhile isPlain = [] ∧ rest.dropWhile isPlain = rest := by
    cases rest with
    | nil => exact ⟨rfl, rfl⟩
    | cons c rest =>
      have hc : isPlain c = false := by
        unfold isPlain
        rw [List.contains_iff_mem.2 (hr c rfl)]
        rfl
      exact ⟨List.takeWhile_cons_of_neg (by rw [hc]; exact nofun),
        List.dropWhile_cons_of_neg (by rw [hc]; exact nofun)⟩
  constructor
  · rw [List.takeWhile_append_of_pos hw, stop.1, List.append_nil]
  · rw [List.dropWhile_append_of_pos hw, stop.2]

theorem follows_marks {rest : List Char} (h : Follows rest) : ∀ c ∈ rest.head?, c ∈ marks := by
  intro c hc
  have hm := h c hc
  simp only [List.mem_cons, List.not_mem_nil, or_false] at hm
  rcases hm with rfl | rfl | rfl | rfl | rfl <;> decide

/-- The text of the form does not begin with a closing character. -/
def Opens (f : Form) : Prop := ∃ c cs, f.text = c :: cs ∧ c ∉ ['>', ')']

theorem Readable.opens {f : Form} (h : Readable f) : f.Opens := by
  induction h with
  | unknown => exact ⟨_, _, rfl, by decide⟩
  | nothing => exact ⟨_, _, rfl, by decide⟩
  | quoted s => exact ⟨_, _, rfl, by decide⟩
  | @named m d as hm _ _ _ =>
    cases m with
    | nil => exact ⟨_, _, rfl, by decide⟩
    | cons c m =>
      refine ⟨_, _, rfl, fun hc => ?_⟩
      have plain := hm c List.mem_cons_self
      simp only [List.mem_cons, List.not_mem_nil, or_false] at hc
      rcases hc with rfl | rfl <;> cases plain
  | arrow => exact ⟨_, _, rfl, by decide⟩
  | @optional f _ ih =>
    obtain ⟨c, cs, ht, hc⟩ := ih
    rw [Opens, text]
    split
    · exact ⟨_, _, rfl, by decide⟩
    · exact ⟨c, cs ++ ['?'], by rw [ht]; rfl, hc⟩
  | @choice f g fs _ _ ih =>
    obtain ⟨c, cs, ht, hc⟩ := ih f List.mem_cons_self
    rw [Opens, text, choiceText]
    split
    · exact ⟨_, _, rfl, by decide⟩
    · exact ⟨c, cs ++ _, by rw [ht]; rfl, hc⟩

/-- Read as a whole, the text of a form gives the form. -/
def ReadsWhole (n : Nat) (f : Form) : Prop :=
  ∀ rest, Stops rest → read n (f.text ++ rest) = some (f, rest)

/-- So does what stands in front of a question mark. -/
def ReadsOperand (n : Nat) (f : Form) : Prop :=
  ∀ rest, Follows rest →
    primaryOf (read n) n ((if f.isGrouped then inParens f.text else f.text) ++ rest) =
      some (f, rest)

/-- And what stands beside a bar. -/
def ReadsAlternative (n : Nat) (f : Form) : Prop :=
  ∀ rest, Parts rest →
    alternativeOf (read n) n ((if f.isArrow then inParens f.text else f.text) ++ rest) =
      some (f, rest)

section

variable {n : Nat} {f : Form} {rest : List Char}

theorem listOf_text {close : Char} {fs : List Form} (hf : ∀ f ∈ fs, ReadsWhole n f)
    (opens : ∀ f ∈ fs, f.Opens) (hc : close ∈ ['>', ')']) {k : Nat} (hk : fs.length < k) :
    listOf (read n) close k (listText fs ++ close :: rest) = some (fs, rest) := by
  induction fs generalizing k with
  | nil =>
    obtain ⟨k, rfl⟩ := Nat.exists_eq_succ_of_ne_zero (Nat.ne_zero_of_lt hk)
    rw [listText, List.nil_append, listOf, if_pos (by rfl)]
    rfl
  | cons f fs ih =>
    obtain ⟨k, rfl⟩ := Nat.exists_eq_succ_of_ne_zero (Nat.ne_zero_of_lt hk)
    obtain ⟨c, t, ht, ho⟩ := opens f List.mem_cons_self
    have head : ∀ cs, (f.text ++ cs).head? ≠ some close := by
      rw [ht]
      rintro cs ⟨⟩
      exact ho hc
    rw [listText, List.append_assoc, listOf, if_neg (head _)]
    cases fs with
    | nil =>
      rw [List.isEmpty_nil, if_pos rfl, List.nil_append, hf f List.mem_cons_self _ ?_]
      · simp only [List.mem_cons, List.not_mem_nil, or_false] at hc
        rcases hc with rfl | rfl <;> rfl
      · exact stops_cons (List.mem_cons_of_mem _ hc) rest
    | cons g fs =>
      rw [List.isEmpty_cons, if_neg nofun, hf f List.mem_cons_self _ ?_]
      · show (listOf (read n) close k (listText (g :: fs) ++ close :: rest)).map _ = _
        rw [ih (fun x hx => hf x (List.mem_cons_of_mem f hx))
          (fun x hx => opens x (List.mem_cons_of_mem f hx)) (Nat.lt_of_succ_lt_succ hk)]
        rfl
      · exact stops_cons List.mem_cons_self _

theorem declaredOf_text {m d : List Char} {as : List Form} (hd : Plain d)
    (has : ∀ a ∈ as, ReadsWhole n a) (opens : ∀ a ∈ as, a.Opens) (hn : as.length < n)
    (hr : Follows rest) :
    declaredOf (read n) n m
        ((d ++ if as.isEmpty then [] else '<' :: (listText as ++ ['>'])) ++ rest) =
      some (.named m d as, rest) := by
  cases as with
  | nil =>
    rw [List.isEmpty_nil, if_pos rfl, List.append_nil]
    obtain ⟨take, drop⟩ := takeWhile_plain hd (follows_marks hr)
    rw [declaredOf, take, drop]
    split
    · exact absurd (hr _ rfl) (by decide)
    · rfl
  | cons a as =>
    rw [List.isEmpty_cons, if_neg nofun, List.append_assoc, List.cons_append, List.append_assoc]
    have mark : ∀ c ∈ ('<' :: (listText (a :: as) ++ (['>'] ++ rest))).head?, c ∈ marks := by
      rintro _ ⟨⟩
      decide
    obtain ⟨take, drop⟩ := takeWhile_plain hd mark
    rw [declaredOf, take, drop]
    show (listOf (read n) '>' n (listText (a :: as) ++ '>' :: rest)).map _ = _
    rw [listOf_text has opens List.mem_cons_self hn]
    rfl

theorem nameOf_named {m d : List Char} {as : List Form} (hm : Plain m) (hd : Plain d)
    (has : ∀ a ∈ as, ReadsWhole n a) (opens : ∀ a ∈ as, a.Opens) (hn : as.length < n)
    (hr : Follows rest) :
    nameOf (read n) n (text (.named m d as) ++ rest) = some (.named m d as, rest) := by
  have mark : ∀ c ∈ ('#' :: ((d ++ if as.isEmpty then [] else '<' :: (listText as ++ ['>'])) ++
      rest)).head?, c ∈ marks := by
    rintro _ ⟨⟩
    decide
  obtain ⟨take, drop⟩ := takeWhile_plain hm mark
  rw [text, List.append_assoc, List.cons_append, nameOf, take, drop]
  exact declaredOf_text hd has opens hn hr

theorem nameOf_word {w : List Char} (hw : Plain w) (hr : Follows rest) :
    nameOf (read n) n (w ++ rest) =
      some (if w = text .unknown then .unknown else .nothing, rest) := by
  obtain ⟨take, drop⟩ := takeWhile_plain hw (follows_marks hr)
  rw [nameOf, take, drop]
  split
  · exact absurd (hr _ rfl) (by decide)
  · rfl

/-- In parentheses, every form can stand before a question mark. -/
theorem primaryOf_inParens (hf : ReadsWhole n f) (opens : f.Opens) (hn : 1 < n)
    (hr : Follows rest) : primaryOf (read n) n (inParens f.text ++ rest) = some (f, rest) := by
  have list : listOf (read n) ')' n (listText [f] ++ ')' :: rest) = some ([f], rest) :=
    listOf_text (fun x hx => List.mem_singleton.1 hx ▸ hf)
      (fun x hx => List.mem_singleton.1 hx ▸ opens) (by decide) hn
  have inside : (inParens f.text ++ rest).tail = listText [f] ++ ')' :: rest := by
    rw [listText, List.isEmpty_nil, if_pos rfl, List.append_nil]
    show (f.text ++ [')']) ++ rest = _
    rw [List.append_assoc]
    rfl
  unfold primaryOf
  rw [if_neg (by rintro ⟨⟩), if_pos (show (inParens f.text ++ rest).head? = some '(' from rfl),
    inside, list]
  split
  · next h =>
    obtain ⟨-, rfl⟩ := Prod.mk.inj (Option.some.inj h)
    exact absurd (hr _ rfl) (by decide)
  · next h =>
    cases h
    rfl
  · next h => cases h

theorem readsOperand_quoted (s : List Char) : ReadsOperand n (.quoted s) := by
  intro rest _
  show primaryOf _ _ (Text.quotedChars s ++ rest) = _
  unfold primaryOf
  rw [if_pos (show (Text.quotedChars s ++ rest).head? = some '"' from rfl)]
  show (unquote ((s.flatMap Text.escape ++ ['"']) ++ rest)).map _ = _
  rw [List.append_assoc]
  show (unquote (s.flatMap Text.escape ++ '"' :: rest)).map _ = _
  rw [unquote_quoted]
  rfl

theorem primaryOf_plain {m cs : List Char} (hm : Plain m) (hc : ∀ c ∈ cs.head?, c ∉ ['"', '('])
    : primaryOf (read n) n (m ++ cs) = nameOf (read n) n (m ++ cs) := by
  have head : ∀ c ∈ ['"', '('], (m ++ cs).head? ≠ some c := by
    intro c mark hh
    cases m with
    | nil => exact hc c hh mark
    | cons d m =>
      cases hh
      have plain := hm c List.mem_cons_self
      simp only [List.mem_cons, List.not_mem_nil, or_false] at mark
      rcases mark with rfl | rfl <;> cases plain
  unfold primaryOf
  rw [if_neg (head _ (by decide)), if_neg (head _ (by decide))]

theorem Follows.not_opening (hr : Follows rest) : ∀ c ∈ rest.head?, c ∉ ['"', '('] := by
  intro c hc
  have h := hr c hc
  simp only [List.mem_cons, List.not_mem_nil, or_false] at h
  rcases h with rfl | rfl | rfl | rfl | rfl <;> decide

theorem readsOperand_unknown : ReadsOperand n .unknown := by
  intro rest hr
  have plain : Plain (text .unknown) := by decide
  show primaryOf _ _ (text .unknown ++ rest) = _
  rw [primaryOf_plain plain hr.not_opening, nameOf_word plain hr, if_pos rfl]

theorem readsOperand_nothing : ReadsOperand n .nothing := by
  intro rest hr
  have plain : Plain (text .nothing) := by decide
  show primaryOf _ _ (text .nothing ++ rest) = _
  rw [primaryOf_plain plain hr.not_opening, nameOf_word plain hr, if_neg (by decide)]

theorem readsOperand_named {m d : List Char} {as : List Form} (hm : Plain m) (hd : Plain d)
    (has : ∀ a ∈ as, ReadsWhole n a) (opens : ∀ a ∈ as, a.Opens) (hn : as.length < n) :
    ReadsOperand n (.named m d as) := by
  intro rest hr
  show primaryOf _ _ (text (.named m d as) ++ rest) = _
  rw [← nameOf_named hm hd has opens hn hr, text, List.append_assoc]
  refine primaryOf_plain hm ?_
  rintro _ ⟨⟩
  decide

theorem readsOperand_grouped (hg : f.isGrouped = true) (hf : ReadsWhole n f) (opens : f.Opens)
    (hn : 1 < n) : ReadsOperand n f := by
  intro rest hr
  rw [if_pos hg]
  exact primaryOf_inParens hf opens hn hr

theorem ReadsOperand.alternative (h : ReadsOperand n f) (hg : f.isGrouped = f.isArrow) :
    ReadsAlternative n f := by
  intro rest hr
  rw [alternativeOf, ← hg, h rest hr.follows, Option.map_some]
  split
  · next h =>
    obtain ⟨-, rfl⟩ := Prod.mk.inj h
    exact absurd (hr _ rfl) (by decide)
  · rfl

theorem ReadsOperand.optional (h : ReadsOperand n f) : ReadsAlternative n (.optional f) := by
  intro rest hr
  show alternativeOf (read n) n (((if f.isGrouped then inParens f.text else f.text) ++ ['?']) ++
    rest) = _
  have follows : Follows ('?' :: rest) := by
    rintro _ ⟨⟩
    decide
  rw [alternativeOf, List.append_assoc, List.singleton_append, h _ follows]
  rfl

theorem choiceOf_text {fs : List Form} (ha : ∀ f ∈ fs, ReadsAlternative n f) (hs : Stops rest)
    (ne : fs ≠ []) {k : Nat} (hk : fs.length ≤ k) :
    choiceOf (read n) n k (choiceText fs ++ rest) = some (fs, rest) := by
  induction fs generalizing k with
  | nil => exact absurd rfl ne
  | cons f fs ih =>
    obtain ⟨k, rfl⟩ := Nat.exists_eq_succ_of_ne_zero (Nat.ne_zero_of_lt hk)
    rw [choiceText, List.append_assoc, choiceOf]
    cases fs with
    | nil =>
      rw [List.isEmpty_nil, if_pos rfl, List.nil_append, ha f List.mem_cons_self _ hs.parts]
      split
      · next h =>
        obtain ⟨-, rfl⟩ := Prod.mk.inj (Option.some.inj h)
        exact absurd (hs _ rfl) (by decide)
      · next h =>
        cases h
        rfl
      · next h => cases h
    | cons g fs =>
      have parts : Parts (('|' :: choiceText (g :: fs)) ++ rest) := by
        rintro _ ⟨⟩
        decide
      rw [List.isEmpty_cons, if_neg (show ¬ false = true from nofun),
        ha f List.mem_cons_self _ parts]
      show (choiceOf (read n) n k (choiceText (g :: fs) ++ rest)).map _ = _
      rw [ih (fun x hx => ha x (List.mem_cons_of_mem f hx)) nofun (Nat.le_of_succ_le_succ hk)]
      rfl

theorem readsWhole_choice {g : Form} {fs : List Form}
    (ha : ∀ x ∈ f :: g :: fs, ReadsAlternative n x) (hn : (f :: g :: fs).length ≤ n) :
    ReadsWhole (n + 1) (.choice (f :: g :: fs)) := by
  intro rest hr
  rw [read, text, choiceOf_text ha hr nofun hn]
  rfl

theorem ReadsAlternative.whole (h : ReadsAlternative n f) (ha : f.isArrow = false) (hn : 1 ≤ n) :
    ReadsWhole (n + 1) f := by
  intro rest hr
  have single : choiceText [f] = f.text := by
    rw [choiceText, if_neg (by rw [ha]; exact nofun)]
    exact List.append_nil _
  have each : ∀ x ∈ [f], ReadsAlternative n x := by
    intro x hx
    rw [List.mem_singleton.1 hx]
    exact h
  rw [read, ← single, choiceOf_text each hr (List.cons_ne_nil f []) hn]
  rfl

theorem readsWhole_arrow {ps : List Form} (hps : ∀ p ∈ ps, ReadsWhole n p)
    (opens : ∀ p ∈ ps, p.Opens) (hf : ReadsWhole n f) (hn : ps.length < n) :
    ReadsWhole (n + 1) (.arrow ps f) := by
  intro rest hr
  obtain ⟨n, rfl⟩ := Nat.exists_eq_succ_of_ne_zero (Nat.ne_zero_of_lt hn)
  have shown : text (.arrow ps f) ++ rest =
      '(' :: (listText ps ++ ')' :: ' ' :: '-' :: '>' :: ' ' :: (f.text ++ rest)) := by
    rw [text, inParens, List.cons_append, List.append_assoc, List.cons_append, List.append_assoc]
    rfl
  have primary : primaryOf (read (n + 1)) (n + 1) (text (.arrow ps f) ++ rest) =
      some (.arrow ps f, rest) := by
    rw [shown]
    unfold primaryOf
    rw [if_neg (by rintro ⟨⟩), if_pos (List.head?_cons), List.tail_cons,
      listOf_text hps opens (by decide) hn]
    show (read (n + 1) (f.text ++ rest)).map _ = _
    rw [hf rest hr]
    rfl
  rw [read, choiceOf, alternativeOf, primary]
  cases rest with
  | nil => rfl
  | cons c rest =>
    have stop := hr c rfl
    simp only [List.mem_cons, List.not_mem_nil, or_false] at stop
    rcases stop with rfl | rfl | rfl <;> rfl

end

/-- With `n` to nest and list, the text of the form is read wherever a form can stand. -/
structure Reads (n : Nat) (f : Form) : Prop where
  whole : ReadsWhole n f
  operand : ReadsOperand n f
  alternative : f.isChoice = false → ReadsAlternative n f

theorem exists_bound {p : Nat → Form → Prop} {fs : List Form}
    (h : ∀ f ∈ fs, ∃ k, ∀ n, k ≤ n → p n f) : ∃ k, ∀ n, k ≤ n → ∀ f ∈ fs, p n f := by
  induction fs with
  | nil => exact ⟨0, fun _ _ => nofun⟩
  | cons f fs ih =>
    obtain ⟨k, hk⟩ := h f List.mem_cons_self
    obtain ⟨l, hl⟩ := ih (fun x hx => h x (List.mem_cons_of_mem f hx))
    refine ⟨max k l, fun n hn => List.forall_mem_cons.2 ⟨hk n (by omega), hl n (by omega)⟩⟩

/-- What needs no parentheses is read everywhere once it is read in front of a question mark. -/
theorem exists_reads_of_operand {f : Form} {k : Nat} (hg : f.isGrouped = false)
    (ha : f.isArrow = false) (h : ∀ n, k ≤ n → ReadsOperand n f) :
    ∃ k, ∀ n, k ≤ n → Reads n f := by
  refine ⟨k + 2, fun n hn => ?_⟩
  obtain ⟨n, rfl⟩ := Nat.exists_eq_succ_of_ne_zero (Nat.ne_zero_of_lt hn)
  have same : f.isGrouped = f.isArrow := hg.trans ha.symm
  exact {
    whole := ((h n (by omega)).alternative same).whole ha (by omega)
    operand := h _ (by omega)
    alternative := fun _ => (h _ (by omega)).alternative same }

theorem Readable.exists_reads {f : Form} (h : Readable f) : ∃ k, ∀ n, k ≤ n → Reads n f := by
  induction h with
  | unknown => exact exists_reads_of_operand (k := 0) rfl rfl (fun _ _ => readsOperand_unknown)
  | nothing => exact exists_reads_of_operand (k := 0) rfl rfl (fun _ _ => readsOperand_nothing)
  | quoted s => exact exists_reads_of_operand (k := 0) rfl rfl (fun _ _ => readsOperand_quoted s)
  | @named m d as hm hd has ih =>
    obtain ⟨k, hk⟩ := exists_bound ih
    refine exists_reads_of_operand (k := max k (as.length + 1)) rfl rfl (fun n hn => ?_)
    exact readsOperand_named hm hd (fun a ha => (hk n (by omega) a ha).whole)
      (fun a ha => (has a ha).opens) (by omega)
  | @arrow ps r hps hr ih ihr =>
    obtain ⟨k, hk⟩ := exists_bound ih
    obtain ⟨l, hl⟩ := ihr
    have whole : ∀ n, max k l + ps.length + 1 ≤ n → ReadsWhole (n + 1) (.arrow ps r) :=
      fun n hn => readsWhole_arrow (fun p hp => (hk n (by omega) p hp).whole)
        (fun p hp => (hps p hp).opens) (hl n (by omega)).whole (by omega)
    refine ⟨max k l + ps.length + 2, fun n hn => ?_⟩
    obtain ⟨n, rfl⟩ := Nat.exists_eq_succ_of_ne_zero (Nat.ne_zero_of_lt hn)
    have operand := readsOperand_grouped rfl (whole n (by omega)) (Readable.arrow hps hr).opens
      (by omega)
    exact {
      whole := whole n (by omega)
      operand := operand
      alternative := fun _ => operand.alternative rfl }
  | @optional f hf ih =>
    obtain ⟨k, hk⟩ := ih
    refine ⟨k + 2, fun n hn => ?_⟩
    obtain ⟨n, rfl⟩ := Nat.exists_eq_succ_of_ne_zero (Nat.ne_zero_of_lt hn)
    have whole := (hk n (by omega)).operand.optional.whole rfl (by omega)
    exact {
      whole := whole
      operand := readsOperand_grouped rfl whole (Readable.optional hf).opens (by omega)
      alternative := fun _ => (hk _ (by omega)).operand.optional }
  | @choice f g fs hfs single ih =>
    obtain ⟨k, hk⟩ := exists_bound ih
    refine ⟨max k (f :: g :: fs).length + 2, fun n hn => ?_⟩
    obtain ⟨n, rfl⟩ := Nat.exists_eq_succ_of_ne_zero (Nat.ne_zero_of_lt hn)
    have whole : ReadsWhole (n + 1) (.choice (f :: g :: fs)) :=
      readsWhole_choice (fun x hx => (hk n (by omega) x hx).alternative (single x hx)) (by omega)
    exact {
      whole := whole
      operand := readsOperand_grouped rfl whole (Readable.choice hfs single).opens (by omega)
      alternative := nofun }

/-- Reading the text of a form gives the form. -/
theorem Readable.read_text {f : Form} (h : Readable f) :
    ∃ k, ∀ n, k ≤ n → read n f.text = some (f, []) := by
  obtain ⟨k, hk⟩ := h.exists_reads
  refine ⟨k, fun n hn => ?_⟩
  rw [← (hk n hn).whole [] nofun, List.append_nil]

/-- No text is that of two forms. -/
theorem Readable.text_injective {f g : Form} (hf : Readable f) (hg : Readable g)
    (h : f.text = g.text) : f = g := by
  obtain ⟨k, hk⟩ := hf.read_text
  obtain ⟨l, hl⟩ := hg.read_text
  have read := hk (max k l) (by omega)
  rw [h, hl (max k l) (by omega)] at read
  exact (Prod.mk.inj (Option.some.inj read)).1.symm

end Form

end PklAnalysis
