import BlockScript.Proofs.Reading.Parsing

/-!
# Phrases

A phrase is the pattern of an expression: an expression tree some of whose
operands are holes, with the parentheses that the pattern has of its own. A
phrase fits at certain levels of a grammar if it is an expression of these
levels whenever the holes are filled with expressions of the levels that stand
in their positions. Whether it fits can be computed.

Results:

* `Phrase.derives`: a phrase that fits is an expression when it is filled.
-/

namespace BlockScript.Reading

/-- The pattern of an expression. -/
inductive Phrase where
  | hole (i : Nat)
  | path (word : String) (fields : List String)
  | number (digits : String)
  | text (literal : String)
  | emptyList
  | group (inner : Phrase)
  | call (word : String) (fields : List String) (args : List Phrase)
  | unary (sign : String) (operand : Phrase)
  | cast (word : String) (operand : Phrase)
  | binary (sign : String) (left right : Phrase)
  | conditional (first condition last : Phrase)
  | choice (condition first last : Phrase)

/-- The tree of a word with members. -/
def pathTree (word : String) (fields : List String) : Expr :=
  fields.foldl .member (.name word)

/-- The tree of a cast. -/
def castTree (word : String) (operand : Expr) : Expr :=
  .unary ("(" ++ word ++ ")") operand

namespace Phrase

/-! ## Trees -/

mutual

/-- The tree of a phrase whose holes are filled with trees. -/
def tree (trees : Nat → Expr) : Phrase → Expr
  | .hole i => trees i
  | .path word fields => pathTree word fields
  | .number digits => .number digits
  | .text literal => .text literal
  | .emptyList => .emptyList
  | .group inner => inner.tree trees
  | .call word fields args => .call (pathTree word fields) (treeList trees args)
  | .unary sign operand => .unary sign (operand.tree trees)
  | .cast word operand => castTree word (operand.tree trees)
  | .binary sign left right => .binary sign (left.tree trees) (right.tree trees)
  | .conditional first condition last | .choice condition first last =>
    .choice (condition.tree trees) (first.tree trees) (last.tree trees)

/-- The trees of phrases. -/
def treeList (trees : Nat → Expr) : List Phrase → List Expr
  | [] => []
  | phrase :: phrases => phrase.tree trees :: treeList trees phrases

end

/-- The tree of a phrase whose holes are filled in order. -/
def filled (phrase : Phrase) (operands : List Expr) : Expr :=
  phrase.tree fun i => operands.getD i .emptyList

mutual

/-- The holes of a phrase. -/
def holes : Phrase → List Nat
  | .hole i => [i]
  | .path .. | .number _ | .text _ | .emptyList => []
  | .group inner => inner.holes
  | .call _ _ args => holesList args
  | .unary _ operand | .cast _ operand => operand.holes
  | .binary _ left right => left.holes ++ right.holes
  | .conditional first condition last => first.holes ++ condition.holes ++ last.holes
  | .choice condition first last => condition.holes ++ first.holes ++ last.holes

/-- The holes of phrases. -/
def holesList : List Phrase → List Nat
  | [] => []
  | phrase :: phrases => phrase.holes ++ holesList phrases

end

/-! ## Tokens -/

/-- A token of a phrase, or one of its holes. -/
inductive Slot where
  | token (token : Token)
  | hole (i : Nat)
  deriving DecidableEq

/-- The tokens in a slot. -/
def Slot.tokens (tokens : Nat → List Token) : Slot → List Token
  | .token t => [t]
  | .hole i => tokens i

/-- The tokens in slots. -/
def fill (tokens : Nat → List Token) (slots : List Slot) : List Token :=
  slots.flatMap (Slot.tokens tokens)

/-- A sign of a phrase. -/
def mark (sign : String) : Slot :=
  .token (.mark sign)

/-- The slots of a word with members. -/
def pathSlots (word : String) (fields : List String) : List Slot :=
  .token (.name word) :: fields.flatMap fun field => [mark ".", .token (.name field)]

mutual

/-- The tokens and holes of a phrase in a grammar. -/
def slots (g : Grammar) : Phrase → List Slot
  | .hole i => [.hole i]
  | .path word fields => pathSlots word fields
  | .number digits => [.token (.number digits)]
  | .text literal => [.token (.text literal)]
  | .emptyList => g.emptyList.map .token
  | .group inner => mark "(" :: (inner.slots g ++ [mark ")"])
  | .call word fields args => pathSlots word fields ++ mark "(" :: slotsList g args
  | .unary sign operand => mark sign :: operand.slots g
  | .cast word operand => mark "(" :: .token (.name word) :: mark ")" :: operand.slots g
  | .binary sign left right => left.slots g ++ mark sign :: right.slots g
  | .conditional first condition last =>
    first.slots g ++ mark "if" :: (condition.slots g ++ mark "else" :: last.slots g)
  | .choice condition first last =>
    condition.slots g ++ mark "?" :: (first.slots g ++ mark ":" :: last.slots g)

/-- The tokens and holes of arguments, with the closing parenthesis. -/
def slotsList (g : Grammar) : List Phrase → List Slot
  | [] => [mark ")"]
  | [phrase] => phrase.slots g ++ [mark ")"]
  | phrase :: phrases => phrase.slots g ++ mark "," :: slotsList g phrases

end

/-! ## Where a phrase fits -/

/-- The first of the levels with a property, and the tighter ones. -/
def levelsFrom (p : Level → Bool) (levels : List Level) : List Level :=
  levels.dropWhile fun level => !p level

/-- Whether a sign is the only one of a level that makes runs. -/
def isRunLevel (level : Level) (sign : String) : Bool :=
  level.shape = .leftward [sign] && runSigns.contains sign

mutual

/-- Whether a phrase is an expression of the levels if the holes have the levels
    of `positions`. -/
def fits (g : Grammar) (positions : Nat → List Level) (levels : List Level) : Phrase → Bool
  | .hole i => (positions i).isSuffixOf levels
  | .path word fields => !g.isCast word && (fields.isEmpty || g.members)
  | .number _ | .text _ | .emptyList => true
  | .group inner => inner.fits g positions g.levels
  | .call word fields args =>
    !g.isCast word && (fields.isEmpty || g.members) && fitsList g positions args
  | .unary sign operand =>
    let levels := levelsFrom (fun level => level.aheadSigns.contains sign) levels
    !levels.isEmpty && operand.fits g positions levels
  | .cast word operand =>
    let levels := levelsFrom Level.hasCasts levels
    !levels.isEmpty && g.isCast word && operand.fits g positions levels
  | .binary sign left right =>
    match levelsFrom (fun level => level.signs.contains sign) levels with
    | [] => false
    | level :: tighter =>
      match level.sides g tighter with
      | none => false
      | some (signs, leftLevels, rightLevels) =>
        signs.contains sign && left.fits g positions leftLevels &&
          (right.fits g positions rightLevels ||
            isRunLevel level sign && right.fits g positions (level :: tighter))
  | .conditional first condition last =>
    match levelsFrom (fun level => level.shape = .conditional) levels with
    | [] => false
    | level :: tighter =>
      first.fits g positions tighter && condition.fits g positions tighter &&
        last.fits g positions (level :: tighter)
  | .choice condition first last =>
    match levelsFrom (fun level => level.shape = .choice) levels with
    | [] => false
    | _ :: tighter =>
      condition.fits g positions tighter && first.fits g positions tighter &&
        last.fits g positions tighter

/-- Whether phrases are arguments. -/
def fitsList (g : Grammar) (positions : Nat → List Level) : List Phrase → Bool
  | [] => true
  | phrase :: phrases => phrase.fits g positions g.levels && fitsList g positions phrases

end

/-! ## Filled phrases -/

variable {g : Grammar} {positions : Nat → List Level} {levels : List Level}

@[simp]
theorem fill_nil (tokens : Nat → List Token) : fill tokens [] = [] := rfl

@[simp]
theorem fill_append (tokens : Nat → List Token) (a b : List Slot) :
    fill tokens (a ++ b) = fill tokens a ++ fill tokens b := by
  simp [fill]

@[simp]
theorem fill_token (tokens : Nat → List Token) (t : Token) (rest : List Slot) :
    fill tokens (.token t :: rest) = t :: fill tokens rest := by
  simp [fill, Slot.tokens]

@[simp]
theorem fill_mark (tokens : Nat → List Token) (sign : String) (rest : List Slot) :
    fill tokens (mark sign :: rest) = .mark sign :: fill tokens rest := by
  simp [mark]

@[simp]
theorem fill_hole (tokens : Nat → List Token) (i : Nat) (rest : List Slot) :
    fill tokens (.hole i :: rest) = tokens i ++ fill tokens rest := by
  simp [fill, Slot.tokens]

@[simp]
theorem fill_map_token (tokens : Nat → List Token) (ts : List Token) :
    fill tokens (ts.map .token) = ts := by
  induction ts with
  | nil => rfl
  | cons t ts ih => simp [ih]

theorem levelsFrom_eq_cons {p : Level → Bool} {level : Level} {tighter : List Level}
    (h : levelsFrom p levels = level :: tighter) :
    p level = true ∧ level :: tighter <:+ levels := by
  refine ⟨?_, h ▸ List.dropWhile_suffix _⟩
  induction levels with
  | nil => cases h
  | cons first levels ih =>
    cases hfirst : p first with
    | false =>
      rw [levelsFrom, List.dropWhile_cons, if_pos (by simp [hfirst])] at h
      exact ih h
    | true =>
      rw [levelsFrom, List.dropWhile_cons, if_neg (by simp [hfirst])] at h
      cases h
      exact hfirst

/-- A word with members is an expression. -/
theorem derives_path {word : String} {fields : List String} (tokens : Nat → List Token)
    (hword : g.isCast word = false) (hfields : fields = [] ∨ g.members = true) :
    Derives g .owner (fill tokens (pathSlots word fields)) (pathTree word fields) := by
  suffices ∀ (ts : List Token) (e : Expr), Derives g .owner ts e →
      Derives g .owner (ts ++ fill tokens (fields.flatMap fun field =>
        [mark ".", .token (.name field)])) (fields.foldl .member e) by
    have := this [.name word] (.name word) (.name hword)
    simpa [pathSlots, pathTree] using this
  intro ts e h
  induction fields generalizing ts e with
  | nil => simpa using h
  | cons field fields ih =>
    have hmembers : g.members = true := by simpa using hfields
    have := ih (.inr hmembers) _ _ (h.member hmembers field)
    simpa using this

/-- Whether the holes are filled with expressions of their levels, whose trees
    are the given ones up to the grouping of runs. -/
def Filled (g : Grammar) (positions : Nat → List Level) (tokens : Nat → List Token)
    (trees parsed : Nat → Expr) (holes : List Nat) : Prop :=
  ∀ i ∈ holes, Derives g (.within (positions i)) (tokens i) (parsed i) ∧
    Regrouped (trees i) (parsed i)

variable {tokens : Nat → List Token} {trees parsed : Nat → Expr}

theorem Filled.left {as bs : List Nat} (h : Filled g positions tokens trees parsed (as ++ bs)) :
    Filled g positions tokens trees parsed as :=
  fun i hi => h i (List.mem_append_left _ hi)

theorem Filled.right {as bs : List Nat} (h : Filled g positions tokens trees parsed (as ++ bs)) :
    Filled g positions tokens trees parsed bs :=
  fun i hi => h i (List.mem_append_right _ hi)

theorem isRunLevel_iff {level : Level} {sign : String} (h : isRunLevel level sign = true) :
    level.shape = .leftward [sign] ∧ sign ∈ runSigns := by
  simpa [isRunLevel] using h

/-- Whether filled slots are an expression of some levels, with the given tree up to the
    grouping of runs. -/
def Denotes (g : Grammar) (tokens : Nat → List Token) (levels : List Level) (slots : List Slot)
    (tree : Expr) : Prop :=
  ∃ e, Derives g (.within levels) (fill tokens slots) e ∧ Regrouped tree e

namespace Denotes

variable {level : Level} {tighter : List Level} {sign : String} {front middle back : List Slot}
  {a b c : Expr}

/-- An expression that can be called is one of all levels. -/
theorem of_owner (h : Derives g .owner (fill tokens front) a) : Denotes g tokens levels front a :=
  ⟨a, h.owner.weaken List.nil_suffix, .refl a⟩

theorem group (h : Denotes g tokens g.levels middle a) :
    Denotes g tokens levels (mark "(" :: (middle ++ [mark ")"])) a := by
  obtain ⟨e, he, hr⟩ := h
  exact ⟨e, by simpa using he.group.owner.weaken List.nil_suffix, hr⟩

theorem unary (hsign : sign ∈ level.aheadSigns) (hsuffix : level :: tighter <:+ levels)
    (h : Denotes g tokens (level :: tighter) back a) :
    Denotes g tokens levels (mark sign :: back) (.unary sign a) := by
  obtain ⟨e, he, hr⟩ := h
  exact ⟨_, by simpa using (he.ahead hsign).weaken hsuffix, hr.unary sign⟩

theorem cast {word : String} (hcasts : level.hasCasts = true) (hword : g.isCast word = true)
    (hsuffix : level :: tighter <:+ levels) (h : Denotes g tokens (level :: tighter) back a) :
    Denotes g tokens levels (mark "(" :: .token (.name word) :: mark ")" :: back)
      (castTree word a) := by
  obtain ⟨e, he, hr⟩ := h
  exact ⟨_, by simpa using (he.cast hcasts hword).weaken hsuffix, hr.unary ("(" ++ word ++ ")")⟩

theorem binary {signs : List String} {leftLevels rightLevels : List Level}
    (hsides : level.sides g tighter = some (signs, leftLevels, rightLevels)) (hsign : sign ∈ signs)
    (hsuffix : level :: tighter <:+ levels) (ha : Denotes g tokens leftLevels front a)
    (hb : Denotes g tokens rightLevels back b) :
    Denotes g tokens levels (front ++ mark sign :: back) (.binary sign a b) := by
  obtain ⟨e, he, hra⟩ := ha
  obtain ⟨e', he', hrb⟩ := hb
  exact ⟨_, by simpa using (Derives.between hsides hsign he he').weaken hsuffix,
    hra.binary sign hrb⟩

/-- The right operand may be a run of the same operator. -/
theorem run {signs : List String} {leftLevels rightLevels : List Level}
    (hsides : level.sides g tighter = some (signs, leftLevels, rightLevels))
    (hrun : isRunLevel level sign = true) (hsuffix : level :: tighter <:+ levels)
    (ha : Denotes g tokens leftLevels front a) (hb : Denotes g tokens (level :: tighter) back b) :
    Denotes g tokens levels (front ++ mark sign :: back) (.binary sign a b) := by
  obtain ⟨hshape, hmem⟩ := isRunLevel_iff hrun
  have hlevel : leftLevels = level :: tighter := by
    simp [Level.sides, hshape] at hsides
    exact hsides.2.1.symm
  obtain ⟨e, he, hra⟩ := hlevel ▸ ha
  obtain ⟨e', he', hrb⟩ := hb
  obtain ⟨joined, hjoined, hr⟩ := Derives.join hshape hmem he he'
  exact ⟨joined, by simpa using hjoined.weaken hsuffix, (hra.binary sign hrb).trans hr⟩

theorem conditional (hshape : level.shape = .conditional) (hsuffix : level :: tighter <:+ levels)
    (ha : Denotes g tokens tighter front a) (hc : Denotes g tokens tighter middle c)
    (hb : Denotes g tokens (level :: tighter) back b) :
    Denotes g tokens levels (front ++ mark "if" :: (middle ++ mark "else" :: back))
      (.choice c a b) := by
  obtain ⟨e, he, hra⟩ := ha
  obtain ⟨e', he', hrc⟩ := hc
  obtain ⟨e'', he'', hrb⟩ := hb
  exact ⟨_, by simpa using (Derives.conditional hshape he he' he'').weaken hsuffix,
    hrc.choice hra hrb⟩

theorem choice (hshape : level.shape = .choice) (hsuffix : level :: tighter <:+ levels)
    (hc : Denotes g tokens tighter front c) (ha : Denotes g tokens tighter middle a)
    (hb : Denotes g tokens tighter back b) :
    Denotes g tokens levels (front ++ mark "?" :: (middle ++ mark ":" :: back))
      (.choice c a b) := by
  obtain ⟨e, he, hrc⟩ := hc
  obtain ⟨e', he', hra⟩ := ha
  obtain ⟨e'', he'', hrb⟩ := hb
  exact ⟨_, by simpa using (Derives.choice hshape he he' he'').weaken hsuffix,
    hrc.choice hra hrb⟩

end Denotes

mutual

/-- A phrase that fits is an expression when it is filled. -/
theorem derives (phrase : Phrase) {levels : List Level}
    (hfits : phrase.fits g positions levels = true)
    (h : Filled g positions tokens trees parsed phrase.holes) :
    Denotes g tokens levels (phrase.slots g) (phrase.tree trees) := by
  cases phrase with
  | hole i =>
    obtain ⟨hd, hr⟩ := h i (by simp [holes])
    have hsuffix : positions i <:+ levels := List.isSuffixOf_iff_suffix.mp hfits
    exact ⟨parsed i, by simpa [slots] using hd.weaken hsuffix, hr⟩
  | path word fields =>
    simp only [fits, Bool.and_eq_true, Bool.not_eq_true', Bool.or_eq_true, List.isEmpty_iff] at hfits
    exact .of_owner (derives_path tokens hfits.1 hfits.2)
  | number digits => exact ⟨_, (Derives.number digits).weaken List.nil_suffix, .refl _⟩
  | text literal => exact ⟨_, (Derives.text literal).weaken List.nil_suffix, .refl _⟩
  | emptyList =>
    have hlist : Derives g (.within levels) g.emptyList .emptyList :=
      Derives.emptyList.weaken List.nil_suffix
    exact ⟨.emptyList, by simpa [slots] using hlist, .refl _⟩
  | group inner => exact (derives inner hfits h).group
  | call word fields args =>
    simp only [fits, Bool.and_eq_true, Bool.not_eq_true', Bool.or_eq_true, List.isEmpty_iff] at hfits
    obtain ⟨parts, hparts, htokens, hregrouped⟩ := derivesList args hfits.2 h
    have hcall := (derives_path tokens hfits.1.1 hfits.1.2).call parts hparts
    refine ⟨_, ?_, (Regrouped.refl _).call hregrouped⟩
    simpa [slots, ← htokens] using hcall.owner.weaken List.nil_suffix
  | unary sign operand =>
    simp only [fits, Bool.and_eq_true, Bool.not_eq_true', List.isEmpty_eq_false_iff] at hfits
    obtain ⟨level, tighter, hlevels⟩ := List.exists_cons_of_ne_nil hfits.1
    obtain ⟨hsign, hsuffix⟩ := levelsFrom_eq_cons hlevels
    rw [hlevels] at hfits
    exact .unary (by simpa using hsign) hsuffix (derives operand hfits.2 h)
  | cast word operand =>
    simp only [fits, Bool.and_eq_true, Bool.not_eq_true', List.isEmpty_eq_false_iff] at hfits
    obtain ⟨level, tighter, hlevels⟩ := List.exists_cons_of_ne_nil hfits.1.1
    obtain ⟨hcasts, hsuffix⟩ := levelsFrom_eq_cons hlevels
    rw [hlevels] at hfits
    exact .cast hcasts hfits.1.2 hsuffix (derives operand hfits.2 h)
  | binary sign left right =>
    cases hlevels : levelsFrom (fun level => level.signs.contains sign) levels with
    | nil =>
      rw [fits, hlevels] at hfits
      cases hfits
    | cons level tighter =>
      have hsuffix := (levelsFrom_eq_cons hlevels).2
      cases hsides : level.sides g tighter with
      | none =>
        simp only [fits, hlevels, hsides] at hfits
        cases hfits
      | some sides =>
        obtain ⟨signs, leftLevels, rightLevels⟩ := sides
        simp only [fits, hlevels, hsides, Bool.and_eq_true, Bool.or_eq_true,
          List.contains_iff_mem] at hfits
        obtain ⟨⟨hsign, hleft⟩, hright⟩ := hfits
        have ha := derives left hleft h.left
        rcases hright with hright | ⟨hrun, hright⟩
        · exact .binary hsides hsign hsuffix ha (derives right hright h.right)
        · exact .run hsides hrun hsuffix ha (derives right hright h.right)
  | conditional first condition last =>
    cases hlevels : levelsFrom (fun level => level.shape = .conditional) levels with
    | nil =>
      rw [fits, hlevels] at hfits
      cases hfits
    | cons level tighter =>
      obtain ⟨hshape, hsuffix⟩ := levelsFrom_eq_cons hlevels
      simp only [fits, hlevels, Bool.and_eq_true] at hfits
      obtain ⟨⟨hfirst, hcondition⟩, hlast⟩ := hfits
      exact .conditional (of_decide_eq_true hshape) hsuffix (derives first hfirst h.left.left)
        (derives condition hcondition h.left.right) (derives last hlast h.right)
  | choice condition first last =>
    cases hlevels : levelsFrom (fun level => level.shape = .choice) levels with
    | nil =>
      rw [fits, hlevels] at hfits
      cases hfits
    | cons level tighter =>
      obtain ⟨hshape, hsuffix⟩ := levelsFrom_eq_cons hlevels
      simp only [fits, hlevels, Bool.and_eq_true] at hfits
      obtain ⟨⟨hcondition, hfirst⟩, hlast⟩ := hfits
      exact .choice (of_decide_eq_true hshape) hsuffix (derives condition hcondition h.left.left)
        (derives first hfirst h.left.right) (derives last hlast h.right)

/-- Phrases that fit as arguments are arguments when they are filled. -/
theorem derivesList (phrases : List Phrase) (hfits : fitsList g positions phrases = true)
    (h : Filled g positions tokens trees parsed (holesList phrases)) :
    ∃ args : List (List Token × Expr),
      (∀ arg ∈ args, Derives g (.within g.levels) arg.1 arg.2) ∧
      .mark "(" :: fill tokens (slotsList g phrases) = argTokens (args.map Prod.fst) ∧
      List.Forall₂ Regrouped (treeList trees phrases) (args.map Prod.snd) := by
  cases phrases with
  | nil => exact ⟨[], by simp, by simp [slotsList, argTokens], .nil⟩
  | cons phrase phrases =>
    simp only [fitsList, Bool.and_eq_true] at hfits
    obtain ⟨e, he, hr⟩ := derives phrase hfits.1 h.left
    obtain ⟨args, hargs, htokens, hregrouped⟩ := derivesList phrases hfits.2 h.right
    refine ⟨(fill tokens (phrase.slots g), e) :: args, ?_, ?_, .cons hr hregrouped⟩
    · intro arg harg
      rcases List.mem_cons.mp harg with rfl | harg
      · exact he
      · exact hargs arg harg
    · cases phrases with
      | nil =>
        obtain rfl : args = [] := by
          cases args with
          | nil => rfl
          | cons _ _ => cases hregrouped
        simp [slotsList, argTokens, otherTokens]
      | cons other others =>
        cases args with
        | nil => cases hregrouped
        | cons arg args =>
          simp only [List.map_cons, argTokens, List.cons.injEq, true_and] at htokens
          simp [slotsList, argTokens, otherTokens, htokens]

end

/-! ## Called words -/

/-- The word that is called, if it has no members. -/
def calledWord (word : String) (fields : List String) : List String :=
  if fields.isEmpty then [word] else []

mutual

/-- The words that a phrase calls of its own. -/
def called : Phrase → List String
  | .hole _ | .path .. | .number _ | .text _ | .emptyList => []
  | .group inner => inner.called
  | .call word fields args => calledWord word fields ++ calledList args
  | .unary _ operand | .cast _ operand => operand.called
  | .binary _ left right => left.called ++ right.called
  | .conditional first condition last | .choice condition first last =>
    condition.called ++ first.called ++ last.called

/-- The words that phrases call of their own. -/
def calledList : List Phrase → List String
  | [] => []
  | phrase :: phrases => phrase.called ++ calledList phrases

end

variable {allowed : String → Bool}

theorem calls_pathTree (word : String) (fields : List String) :
    (pathTree word fields).calls allowed = true := by
  suffices ∀ e : Expr, e.calls allowed = true →
      (fields.foldl Expr.member e).calls allowed = true from this (.name word) rfl
  intro e he
  induction fields generalizing e with
  | nil => exact he
  | cons field fields ih => exact ih (.member e field) he

theorem calls_call_pathTree (word : String) (fields : List String) (args : List Expr) :
    (Expr.call (pathTree word fields) args).calls allowed =
      ((calledWord word fields).all allowed && Expr.callsList allowed args) := by
  cases fields with
  | nil => simp [pathTree, Expr.calls, calledWord]
  | cons field fields =>
    have hmember : ∃ owner last, pathTree word (field :: fields) = .member owner last := by
      rw [pathTree, ← List.dropLast_append_getLast (List.cons_ne_nil field fields),
        List.foldl_append]
      exact ⟨_, _, rfl⟩
    obtain ⟨owner, last, heq⟩ := hmember
    have howner : (pathTree word (field :: fields)).calls allowed = true :=
      calls_pathTree word (field :: fields)
    rw [heq] at howner ⊢
    simp [Expr.calls, calledWord, show owner.calls allowed = true from howner]

mutual

/-- The words called in a filled phrase: its own, and those in the holes. -/
theorem calls_tree_iff (phrase : Phrase) : (phrase.tree trees).calls allowed = true ↔
    (∀ word ∈ phrase.called, allowed word = true) ∧
      ∀ i ∈ phrase.holes, (trees i).calls allowed = true := by
  cases phrase with
  | hole i => simp [tree, called, holes]
  | path word fields => simp [tree, called, holes, calls_pathTree]
  | number _ | text _ | emptyList => simp [tree, called, holes, Expr.calls]
  | group inner => exact calls_tree_iff inner
  | call word fields args =>
    have ih := calls_treeList_iff args
    simp only [tree, calls_call_pathTree, Bool.and_eq_true, List.all_eq_true, ih, called, holes,
      List.mem_append]
    grind
  | unary sign operand => exact calls_tree_iff operand
  | cast word operand => exact calls_tree_iff operand
  | binary sign left right =>
    have ihl := calls_tree_iff left
    have ihr := calls_tree_iff right
    simp only [tree, Expr.calls, Bool.and_eq_true, ihl, ihr, called, holes, List.mem_append]
    grind
  | conditional first condition last =>
    have iha := calls_tree_iff first
    have ihc := calls_tree_iff condition
    have ihb := calls_tree_iff last
    simp only [tree, Expr.calls, Bool.and_eq_true, iha, ihb, ihc, called, holes, List.mem_append]
    grind
  | choice condition first last =>
    have iha := calls_tree_iff first
    have ihc := calls_tree_iff condition
    have ihb := calls_tree_iff last
    simp only [tree, Expr.calls, Bool.and_eq_true, iha, ihb, ihc, called, holes, List.mem_append]
    grind

theorem calls_treeList_iff (phrases : List Phrase) :
    Expr.callsList allowed (treeList trees phrases) = true ↔
      (∀ word ∈ calledList phrases, allowed word = true) ∧
        ∀ i ∈ holesList phrases, (trees i).calls allowed = true := by
  cases phrases with
  | nil => simp [treeList, Expr.callsList, calledList, holesList]
  | cons phrase phrases =>
    have ih := calls_tree_iff phrase
    have ihs := calls_treeList_iff phrases
    simp only [treeList, Expr.callsList, Bool.and_eq_true, ih, ihs, calledList, holesList,
      List.mem_append]
    grind

end

mutual

/-- What fills a hole is among the tokens of a filled phrase. -/
theorem mem_slots_of_mem_holes (g : Grammar) {i : Nat} (phrase : Phrase) (h : i ∈ phrase.holes) :
    .hole i ∈ phrase.slots g := by
  cases phrase with
  | hole j => simpa [holes, slots] using h
  | path _ _ | number _ | text _ | emptyList => simp [holes] at h
  | group inner =>
    have := mem_slots_of_mem_holes g inner h
    simp [slots, this]
  | call word fields args =>
    have := mem_slotsList_of_mem_holesList g args h
    simp [slots, this]
  | unary sign operand =>
    have := mem_slots_of_mem_holes g operand h
    simp [slots, this]
  | cast word operand =>
    have := mem_slots_of_mem_holes g operand h
    simp [slots, this]
  | binary sign left right =>
    rcases List.mem_append.mp h with h | h
    · simp [slots, mem_slots_of_mem_holes g left h]
    · simp [slots, mem_slots_of_mem_holes g right h]
  | conditional first condition last =>
    rcases List.mem_append.mp h with h | h
    · rcases List.mem_append.mp h with h | h
      · simp [slots, mem_slots_of_mem_holes g first h]
      · simp [slots, mem_slots_of_mem_holes g condition h]
    · simp [slots, mem_slots_of_mem_holes g last h]
  | choice condition first last =>
    rcases List.mem_append.mp h with h | h
    · rcases List.mem_append.mp h with h | h
      · simp [slots, mem_slots_of_mem_holes g condition h]
      · simp [slots, mem_slots_of_mem_holes g first h]
    · simp [slots, mem_slots_of_mem_holes g last h]

theorem mem_slotsList_of_mem_holesList (g : Grammar) {i : Nat} (phrases : List Phrase)
    (h : i ∈ holesList phrases) : .hole i ∈ slotsList g phrases := by
  cases phrases with
  | nil => simp [holesList] at h
  | cons phrase phrases =>
    rcases List.mem_append.mp h with h | h
    · have := mem_slots_of_mem_holes g phrase h
      cases phrases <;> simp [slotsList, this]
    · have := mem_slotsList_of_mem_holesList g phrases h
      cases phrases with
      | nil => simp [holesList] at h
      | cons other others => simp [slotsList, this]

end

end Phrase

end BlockScript.Reading
