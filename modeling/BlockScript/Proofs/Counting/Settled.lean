import BlockScript.Proofs.Counting.Rounds

/-!
# Counts that are settled when a loop is entered

The number of rounds of a loop with a count depends only on the value that the count has
when the loop is entered. A header that reads its bound again ahead of every round
compares with a constant, or with a variable that no round assigns. The exception is a
count that is nothing but a variable: it stays in the header as it is, and a round can
assign it.

Results:

* `Scene.Made.bound_cases`: what the bound of a loop can be.
* `Scene.count_settled_iff`: the bound is fixed, and with it the number of rounds,
  except for a variable that a round assigns.
-/

namespace BlockScript

open BlockScript.Number BlockScript.Text

namespace Scene

variable {scene : Scene} {ref : Ref} {block : Block Ref} {room : Nat} {s t u b final : PassState}
  {loop : CountedLoop} {language : Language}

/-! ## Names of loops -/

namespace Made

variable (h : scene.Made room ref block s u b t loop)
include h

theorem leads_count : scene.Leads s u :=
  Kept.of_run (scene.leads_kept.follow (scene.leads_kept.renderWithin room) ref block _) h.count

/-- The blocks around the body are those around the count. -/
theorem active_eq : u.active = s.active :=
  (Kept.of_run (scene.quiet_kept.follow (scene.quiet_kept.renderWithin room) ref block _)
    h.count).1

theorem leads_body : scene.Leads u b :=
  Kept.of_run (scene.leads_kept.follow (scene.leads_kept.renderWithin room) ref block _) h.body

/-- After the counter, at most the bound gets an identifier. -/
theorem leads_counter : ∃ c, Pass.freshName scene.dialect.policy .variable Recipe.counterBase b =
    (.ok loop.counter, c) ∧ scene.Leads c t := by
  obtain ⟨c, hcounter, hrest⟩ := h.names
  refine ⟨c, hcounter, ?_⟩
  split at hrest
  · obtain ⟨-, rfl, -⟩ := hrest
    exact .refl
  · split at hrest
    · obtain ⟨-, rfl, -⟩ := hrest
      exact .refl
    · exact Kept.of_run (scene.leads_kept.freshName _ _) hrest.2

theorem leads_names : scene.Leads u t := by
  obtain ⟨c, hcounter, hlast⟩ := h.leads_counter
  have hfirst : scene.Leads b c := Kept.of_run (scene.leads_kept.freshName _ _) hcounter
  exact (h.leads_body.trans hfirst).trans hlast

/-- The counter of a loop is a new word, which is withheld from then on. -/
theorem counter_own (hb : b.names.Consistent) :
    ∃ word, loop.counter = scene.dialect.policy.sign .variable ++ word ∧
      scene.dialect.policy.Fits .variable word ∧ word ∉ b.names.taken ∧
      t.names.Withheld word := by
  obtain ⟨c, hcounter, hlast⟩ := h.leads_counter
  obtain ⟨word, htext, hfits, hnew, hwithheld⟩ := freshName_own hb hcounter
  exact ⟨word, htext, hfits, hnew, hlast.extends.withheld hwithheld⟩

/-- No round assigns the counter of the loop. -/
theorem counter_unassigned (hb : b.names.Consistent) (hlater : scene.Leads t final) :
    scene.dialect.policy.IsVariable loop.counter ∧
      ¬scene.Assigns block u b final loop.counter := by
  obtain ⟨word, htext, hfits, hnew, hwithheld⟩ := h.counter_own hb
  refine ⟨⟨word, htext, hfits⟩, ?_⟩
  rw [htext]
  exact not_assigns_of_withheld hnew (hlater.extends.withheld hwithheld)

/-- Where a header reads its bound once, the value of the bound depends on that of the
    count. -/
theorem value_bound_eq {before after : String}
    (hcount : scene.dialect.repeatCount = .truncated before after) {State Value : Type}
    {runtime : Runtime State Value} (hlaw : runtime.Lawful scene.dialect) {x y : State}
    (hvalue : runtime.value x loop.count = runtime.value y loop.count) :
    runtime.value x loop.bound = runtime.value y loop.bound := by
  obtain ⟨c, -, hrest⟩ := h.names
  rw [hcount] at hrest
  obtain ⟨-, -, hbound⟩ := hrest
  rw [hbound, Recipe.truncatedCount]
  split
  · have hliteral := isLiteral_toString (Double.truncate ‹_›)
    exact hlaw.constant ⟨not_signed_of_isLiteral hliteral, .inr (.inl hliteral)⟩ x y
  · rw [hlaw.wrapped hcount, hlaw.wrapped hcount, hvalue]

/-- In PHP, the bound of a loop is a constant, or the variable that is its count, or a
    new word, which is withheld from then on. -/
theorem bound_cases (hrules : scene.rules.Known) (hdialect : scene.dialect = Php.dialect)
    (hs : s.Named scene.dialect.policy) (hb : b.names.Consistent) :
    loop.stored = false ∧ loop.bound = loop.count ∧ scene.dialect.IsConstant loop.count ∨
      (loop.stored = false ∧ loop.bound = loop.count ∧ ∃ name, scene.CountsVariable block name ∧
        u.identifier? scene.dialect.policy .variable name = some loop.count) ∨
      loop.stored = true ∧ loop.counter ≠ loop.bound ∧ ∃ word,
        loop.bound = scene.dialect.policy.sign .variable ++ word ∧
          scene.dialect.policy.Fits .variable word ∧ word ∉ b.names.taken ∧
          t.names.Withheld word := by
  obtain ⟨c, hcounter, hrest⟩ := h.names
  have hstored : scene.dialect.repeatCount = .stored := by
    rw [hdialect]
    rfl
  have hsign : scene.dialect.policy.variableSign = "$" := by
    rw [hdialect]
    rfl
  rw [hstored] at hrest
  dsimp only at hrest
  split at hrest
  · next hinline =>
    obtain ⟨hplain, -, hbound⟩ := hrest
    by_cases hsigned : Signed loop.count
    · have hword : isSingleWord loop.count = true := by
        simpa [isNumber_of_signed hsigned] using hinline
      exact .inr (.inl ⟨hplain, hbound, counts_of_signed hrules hdialect hs h.count hsigned
        (not_isCompound_of_isSingleWord hword)⟩)
    · refine .inl ⟨hplain, hbound, hsigned, ?_⟩
      rcases Bool.or_eq_true_iff.mp hinline with hword | hnumber
      · exact .inr (.inr ⟨hsign, hword⟩)
      · exact .inl hnumber
  · obtain ⟨hassigned, hbound⟩ := hrest
    have hlater := Leads.extends (Kept.of_run (scene.leads_kept.freshName _ _) hcounter)
    obtain ⟨first, hfirst, -, -, hwithheld⟩ := freshName_own hb hcounter
    obtain ⟨word, htext, hfits, hnew, hlast⟩ := freshName_own (hlater.consistent hb) hbound
    refine .inr (.inr ⟨hassigned, fun heq => hnew ?_, word, htext, hfits,
      fun hold => hnew (hlater.taken hold), hlast⟩)
    rw [hfirst, htext, String.append_right_inj] at heq
    rw [← heq]
    exact hwithheld.taken

/-- In PHP, the counter of a loop is not its bound. -/
theorem counter_ne_bound (hrules : scene.rules.Known) (hdialect : scene.dialect = Php.dialect)
    (hs : s.Named scene.dialect.policy) (hc : s.names.Consistent)
    (hbound : ¬scene.dialect.IsConstant loop.bound) : loop.counter ≠ loop.bound := by
  have hu := h.leads_count.extends.consistent hc
  have hb := h.leads_body.extends.consistent hu
  rcases h.bound_cases hrules hdialect hs hb with
    ⟨-, heq, hconstant⟩ | ⟨-, heq, name, -, hname⟩ | ⟨-, hne, -⟩
  · exact absurd (heq ▸ hconstant) hbound
  · obtain ⟨word, htext, -, hnew, -⟩ := h.counter_own hb
    obtain ⟨other, hlookup, hother⟩ := identifier?_eq_some.mp hname
    rw [heq, htext, ← hother, Ne, String.append_right_inj]
    rintro rfl
    exact hnew (h.leads_body.extends.taken (hu.taken hlookup))
  · exact hne

/-- In PHP, a count that is a variable stays in the header. -/
theorem bound_eq_count (hdialect : scene.dialect = Php.dialect) (hs : s.Named scene.dialect.policy)
    {name : String} (hname : u.identifier? scene.dialect.policy .variable name = some loop.count) :
    loop.bound = loop.count ∧ Signed loop.count := by
  obtain ⟨word, htext, hfits⟩ :=
    isVariable_of_identifier ((later_of_follow h.count).names.named hs) hname
  have hsign : scene.dialect.policy.sign .variable = "$" := by
    rw [hdialect]
    rfl
  have hstored : scene.dialect.repeatCount = .stored := by
    rw [hdialect]
    rfl
  have hword : isSingleWord loop.count = true := by
    rw [htext, hsign]
    exact isSingleWord_of_isIdentifier hfits.identifier
  obtain ⟨c, -, hrest⟩ := h.names
  rw [hstored] at hrest
  simp only [hword, Bool.true_or, if_true] at hrest
  refine ⟨hrest.2.2, ?_⟩
  rw [htext, hsign]
  simp [Signed]

/-! ## Bounds and rounds -/

/-- The bound is fixed, except for a count in PHP that is a variable which a round
    assigns. -/
theorem isFixed_iff (hrules : scene.rules.Known) (hdialect : scene.dialect = language.dialect)
    (hs : s.Named scene.dialect.policy) (hc : s.names.Consistent) (hlater : scene.Leads t final) :
    loop.IsFixed language (scene.Assigns block u b final) ↔
      ¬(language = .php ∧
        ∃ name, scene.CountsVariable block name ∧
          scene.CanAssign u.active block final (lower name)) := by
  cases language with
  | python | lua => simp [CountedLoop.IsFixed, Language.readsBoundAgain]
  | php =>
    have hu := h.leads_count.extends.consistent hc
    have hb := h.leads_body.extends.consistent hu
    have hfinal : scene.Leads u final := h.leads_names.trans hlater
    have hassigns : ∀ {name}, u.identifier? scene.dialect.policy .variable name = some loop.count →
        (scene.Assigns block u b final loop.count ↔
          scene.CanAssign u.active block final (lower name)) :=
      assigns_identifier_iff hu (hfinal.extends.consistent hu) hfinal
    simp only [CountedLoop.IsFixed, Language.readsBoundAgain, true_and, forall_const, ← hdialect]
    constructor
    · rintro hfixed ⟨name, hcounts, hcan⟩
      have hname := count_of_countsVariable hs hcounts h.count
      obtain ⟨heq, hsigned⟩ := h.bound_eq_count hdialect hs hname
      rw [heq] at hfixed
      rcases hfixed with hconstant | ⟨-, hno⟩
      · exact hconstant.1 hsigned
      · exact hno ((hassigns hname).mpr hcan)
    · intro hnone
      rcases h.bound_cases hrules hdialect hs hb with ⟨-, heq, hconstant⟩ |
        ⟨-, heq, name, hcounts, hname⟩ | ⟨-, -, word, htext, hfits, hnew, hwithheld⟩
      · exact .inl (heq ▸ hconstant)
      · refine .inr ⟨heq ▸ isVariable_of_identifier ?_ hname, ?_⟩
        · exact (later_of_follow h.count).names.named hs
        · rw [heq, hassigns hname]
          exact fun hcan => hnone ⟨name, hcounts, hcan⟩
      · refine .inr ⟨⟨word, htext, hfits⟩, ?_⟩
        rw [htext]
        exact not_assigns_of_withheld hnew (hlater.extends.withheld hwithheld)

/-- Where the header reads its bound again, the bound has the value of the count when the
    first round starts. -/
theorem value_entered (hrules : scene.rules.Known) (hdialect : scene.dialect = Php.dialect)
    (hs : s.Named scene.dialect.policy) (hb : b.names.Consistent) {State Value : Type}
    {runtime : Runtime State Value} (hlaw : runtime.Lawful scene.dialect) (x : State) :
    runtime.value (loop.entered runtime x) loop.bound = runtime.value x loop.count := by
  rcases h.bound_cases hrules hdialect hs hb with ⟨hplain, heq, -⟩ | ⟨hplain, heq, -⟩ |
    ⟨hstored, -, word, htext, hfits, -⟩
  · rw [CountedLoop.entered, hplain, heq]
    rfl
  · rw [CountedLoop.entered, hplain, heq]
    rfl
  · rw [CountedLoop.entered, hstored, if_pos rfl, hlaw.assigned ⟨word, htext, hfits⟩]

/-- A loop whose bound is fixed does a number of rounds that depends only on the value of
    its count. -/
theorem isSettled (hrules : scene.rules.Known) (hdialect : scene.dialect = language.dialect)
    (hs : s.Named scene.dialect.policy) (hc : s.names.Consistent) (hlater : scene.Leads t final)
    (hfixed : loop.IsFixed language (scene.Assigns block u b final)) :
    loop.IsSettled language (scene.Assigns block u b final) := by
  intro State Value runtime hlaw body hframe n m x y x' y' hrun hrun' hvalue
  have hb := h.leads_body.extends.consistent (h.leads_count.extends.consistent hc)
  rw [← hdialect] at hlaw hframe
  cases language with
  | python | lua =>
    obtain ⟨hn, -⟩ := hrun
    obtain ⟨hm, -⟩ := hrun'
    rw [hn, hm, h.value_bound_eq (congrArg Dialect.repeatCount hdialect) hlaw hvalue]
  | php =>
    obtain ⟨hcounter, hunassigned⟩ := h.counter_unassigned hb hlater
    have hbound := hfixed rfl
    rw [← hdialect] at hbound
    -- No round changes the bound, and neither does the counter.
    have hround : ∀ x y, body x y → runtime.value y loop.bound = runtime.value x loop.bound := by
      rcases hbound with hconstant | ⟨hvariable, hno⟩
      · exact fun x y _ => hlaw.constant hconstant y x
      · exact fun x y hxy => hframe x y hxy _ (by simp) hvariable hno
    have hcount : ∀ x v, runtime.value (runtime.assign x loop.counter v) loop.bound =
        runtime.value x loop.bound := by
      by_cases hconstant : scene.dialect.IsConstant loop.bound
      · exact fun x v => hlaw.constant hconstant _ x
      · have hvariable := (hbound.resolve_left hconstant).1
        exact hlaw.other hcounter hvariable
          (h.counter_ne_bound hrules hdialect hs hc hconstant)
    refine Recounted.count_eq
      (fun x y hxy => ⟨hframe x y hxy _ (by simp) hcounter hunassigned, hround x y hxy⟩)
      (fun x v => ⟨hlaw.assigned hcounter x v, hcount x v⟩) hrun hrun' ?_ ?_
    · rw [hlaw.assigned hcounter, hlaw.assigned hcounter]
    · rw [hcount, hcount, h.value_entered hrules hdialect hs hb hlaw,
        h.value_entered hrules hdialect hs hb hlaw, hvalue]

end Made

/-- The block types for loops with a count. -/
def repeatTypes : List String :=
  ["controls_repeat_ext", "controls_repeat"]

/-- Blocks of these types are loops with a count. -/
theorem hasForm_of_repeatTypes {language : String}
    (hrules : scene.rules = .ofLanguage language) (htype : block.type ∈ repeatTypes)
    (hblock : scene.graph.block? ref = some block) (henabled : block.enabled = true) :
    scene.HasForm ref block .repeatLoop := by
  refine ⟨hblock, henabled, ?_⟩
  rw [hrules]
  rcases List.mem_cons.mp htype with htype | htype
  · rw [htype]
    exact ⟨_, rfl, rfl⟩
  · rw [List.mem_singleton.mp htype]
    exact ⟨_, rfl, rfl⟩

/-- A loop with a count has a bound that is fixed, and does a number of rounds that
    depends only on the value of the count when the loop is entered. The exception are
    counts in PHP that are nothing but a variable which a round assigns: there the bound
    is that variable. This holds for loops inside any blocks that are being rendered, and
    the statements that a round runs assign what they are said to. -/
theorem count_settled_iff {config : Config} {workspace : Workspace} {rendered : Rendered}
    (hblock : (ofLanguage language config workspace).graph.block? ref = some block)
    (henabled : block.enabled = true) (htype : block.type ∈ repeatTypes)
    (hs : (ofLanguage language config workspace).During s)
    (hrun : (ofLanguage language config workspace).renderWithin room ref s = (.ok rendered, t))
    (hlater : (ofLanguage language config workspace).Leads t final) :
    ∃ rule less s' u b t' loop,
      (ofLanguage language config workspace).rules.lookup block.type = .ok rule ∧
      rendered = .text ((ofLanguage language config workspace).statementText rule ref block
        (loop.text language.dialect)) ∧
      (ofLanguage language config workspace).Made less ref block s' u b t' loop ∧
      u.active = ref :: s.active ∧
      (ofLanguage language config workspace).AssignmentsWritten block final (ref :: s.active)
        ((ofLanguage language config workspace).Assigns block u b final) ∧
      (loop.IsFixed language ((ofLanguage language config workspace).Assigns block u b final) ↔
        ¬(language = .php ∧ ∃ name,
          (ofLanguage language config workspace).CountsVariable block name ∧
          (ofLanguage language config workspace).CanAssign (ref :: s.active) block final
            (lower name))) ∧
      (loop.IsFixed language ((ofLanguage language config workspace).Assigns block u b final) →
        loop.IsSettled language
          ((ofLanguage language config workspace).Assigns block u b final)) := by
  have hform : (ofLanguage language config workspace).HasForm ref block .repeatLoop :=
    hasForm_of_repeatTypes rfl htype hblock henabled
  obtain ⟨less, rule, product, s', t', hrule, hs', hnames, hactive, hnames', hfollow, hconclude⟩ :=
    hform.renderWithin_eq_ok hs.named hrun
  obtain ⟨u, b, loop, hmade, rfl⟩ := made_of_repeatLoop hfollow
  have hconsistent : s'.names.Consistent := hnames ▸ hs.consistent
  have hlast : (ofLanguage language config workspace).Leads t' final :=
    (leads_unnamed hnames').trans hlater
  have hnest : u.active = ref :: s.active := hmade.active_eq.trans hactive
  refine ⟨rule, less, s', u, b, t', loop, hrule, text_of_conclude hconclude, hmade, hnest, ?_, ?_,
    hmade.isSettled (RuleTable.known_ofLanguage _) rfl hs' hconsistent hlast⟩
  · rw [← hnest]
    exact assignmentsWritten_assigns
  · rw [← hnest]
    exact hmade.isFixed_iff (RuleTable.known_ofLanguage _) rfl hs' hconsistent hlast

/-! ### A sum and a variable as counts -/

/-- Whole numbers as the values of numbers, of variables, and of sums of a variable and
    a number. -/
def sums : Runtime (String → Int) Int where
  value s code :=
    if Signed code then
      s (String.ofList (code.toList.takeWhile (· ≠ ' '))) +
        (readInt? (String.ofList ((code.toList.dropWhile (· ≠ ' ')).drop 3))).getD 0
    else (readInt? code).getD 0
  after s _ := s
  assign s x v := Function.update s x v
  zero := 0
  next v := v + 1
  less v w := v < w
  whole v := v
  rounds := Int.toNat

/-- A variable has the value that it was last assigned. -/
theorem value_sums {x : String} (hx : Php.dialect.policy.IsVariable x) (s : String → Int) :
    sums.value s x = s x := by
  obtain ⟨word, rfl, hfits⟩ := hx
  have hlist : (Php.dialect.policy.sign .variable ++ word).toList = '$' :: word.toList := by
    rw [show Php.dialect.policy.sign .variable = "$" from rfl]
    simp
  have hplain : ∀ c ∈ '$' :: word.toList, decide (c ≠ ' ') = true := by
    obtain ⟨first, rest, hword, hfirst, -, hrest⟩ := hfits.identifier
    intro c hc
    rw [hword] at hc
    rw [decide_eq_true_eq]
    rintro rfl
    rcases List.mem_cons.mp hc with heq | hc
    · exact absurd heq (by decide)
    · rcases List.mem_cons.mp hc with heq | hc
      · exact absurd (heq ▸ hfirst) (by decide)
      · exact absurd (hrest _ hc) (by decide)
  have hsigned : Signed (Php.dialect.policy.sign .variable ++ word) := by
    simp [Signed, hlist]
  have hzero : readInt? (String.ofList []) = none := by decide
  show (if Signed _ then _ else _) = _
  rw [if_pos hsigned, hlist, List.takeWhile_eq_self_iff.mpr hplain,
    List.dropWhile_eq_nil_iff.mpr hplain, List.drop_nil, hzero, ← hlist, String.ofList_toList]
  exact Int.add_zero _

theorem lawful_sums : sums.Lawful Php.dialect where
  constant h s t := by
    show (if Signed _ then _ else _) = (if Signed _ then _ else _)
    rw [if_neg h.1, if_neg h.1]
  assigned h s v := by
    rw [value_sums h]
    exact Function.update_self _ _ _
  other hx hy hne s v := by
    rw [value_sums hy, value_sums hy]
    exact Function.update_of_ne hne.symm _ _
  wrapped h := by cases h

/-- A loop that takes its count from a block, with a body that sets the variable `n` to
    the variable `m`. -/
def loopOver (count : Ref) : Block Ref :=
  { Block.ofType "controls_repeat_ext" with
    values := [("TIMES", some count)], statements := [("DO", some 4)] }

/-- A workspace with that loop. The block 0 is the variable `n`, and the block 2 is the
    sum of it and one. -/
def countedBy (count : Ref) : Workspace where
  tops := [5]
  graph := ⟨#[{ Block.ofType "variables_get" with fields := [("VAR", .text "n")] },
    { Block.ofType "math_number" with fields := [("NUM", .int 1)] },
    { Block.ofType "math_arithmetic" with
      fields := [("OP", .text "ADD")], values := [("A", some 0), ("B", some 1)] },
    { Block.ofType "variables_get" with fields := [("VAR", .text "m")] },
    { Block.ofType "variables_set" with
      fields := [("VAR", .text "n")], values := [("VALUE", some 3)] },
    loopOver count]⟩

/-- A configuration without comments. -/
def plainly : Config := { emitComments := false }

/-- The loop over the sum of the variable `n` and one. -/
def sumLoop : CountedLoop where
  count := "$n + 1"
  body := "  $n = $m;\n"
  counter := "$count2"
  bound := "$repeat_end"
  stored := true

/-- A sum is stored ahead of the loop, so that the body cannot change it. -/
theorem count_settled_iff_sum :
    ∃ t, (ofLanguage .php plainly (countedBy 2)).During {} ∧
      (ofLanguage .php plainly (countedBy 2)).graph.block? 5 = some (loopOver 2) ∧
      (loopOver 2).enabled = true ∧ (loopOver 2).type ∈ repeatTypes ∧
      (ofLanguage .php plainly (countedBy 2)).renderWithin 7 5 {} =
        (.ok (.text (sumLoop.text Php.dialect)), t) ∧
      (ofLanguage .php plainly (countedBy 2)).Leads t t ∧
      ∃ rule less s' u b t' loop,
        (ofLanguage .php plainly (countedBy 2)).rules.lookup (loopOver 2).type = .ok rule ∧
        .text (sumLoop.text Php.dialect) =
          Rendered.text ((ofLanguage .php plainly (countedBy 2)).statementText rule 5 (loopOver 2)
            (loop.text Php.dialect)) ∧
        (ofLanguage .php plainly (countedBy 2)).Made less 5 (loopOver 2) s' u b t' loop ∧
        loop.IsFixed .php ((ofLanguage .php plainly (countedBy 2)).Assigns (loopOver 2) u b t) ∧
        loop.IsSettled .php
          ((ofLanguage .php plainly (countedBy 2)).Assigns (loopOver 2) u b t) := by
  have hrun := Pass.eq_of_toOption
    (p := (ofLanguage .php plainly (countedBy 2)).renderWithin 7 5) (s := {})
    (a := .text (sumLoop.text Php.dialect)) (by decide +kernel)
  have htype : (loopOver 2).type ∈ repeatTypes := by decide
  have hstart : (ofLanguage .php plainly (countedBy 2)).During {} := .reached .start
  refine ⟨_, hstart, rfl, rfl, htype, hrun, .refl, ?_⟩
  obtain ⟨rule, less, s', u, b, t', loop, hrule, htext, hmade, -, -, hfixed, hsettled⟩ :=
    count_settled_iff rfl rfl htype hstart hrun .refl
  have hno : loop.IsFixed .php ((ofLanguage .php plainly (countedBy 2)).Assigns (loopOver 2) u b
      ((ofLanguage .php plainly (countedBy 2)).renderWithin 7 5 {}).2) := by
    refine hfixed.mpr ?_
    -- The block that the count comes from is not one of a variable.
    rintro ⟨-, name, ⟨-, target, other, hinput, ⟨hother, -, rule, hrule, hform⟩, -⟩, -⟩
    cases hinput
    cases hother
    cases hrule
    cases hform
  exact ⟨rule, less, s', u, b, t', loop, hrule, htext, hmade, hno, hsettled hno⟩

/-- A loop over the variable `n`, with a body that calls the procedure `p`. That one has a
    parameter `n`, and calls the procedure `q`, which sets the variable `n`. -/
def relayed : Workspace where
  tops := [3, 5, 8]
  graph := ⟨#[{ Block.ofType "variables_get" with fields := [("VAR", .text "n")] },
    { Block.ofType "variables_get" with fields := [("VAR", .text "m")] },
    { Block.ofType "variables_set" with
      fields := [("VAR", .text "n")], values := [("VALUE", some 1)] },
    { Block.ofType "procedures_defnoreturn" with
      fields := [("NAME", .text "q")], statements := [("STACK", some 2)] },
    { Block.ofType "procedures_callnoreturn" with fields := [("NAME", .text "q")] },
    { Block.ofType "procedures_defnoreturn" with
      fields := [("NAME", .text "p")], statements := [("STACK", some 4)],
      extraState := [("params", .arr [.str "n"])] },
    { Block.ofType "math_number" with fields := [("NUM", .int 1)] },
    { Block.ofType "procedures_callnoreturn" with
      fields := [("NAME", .text "p")], values := [("ARG0", some 6)],
      extraState := [("params", .arr [.str "n"])] },
    { Block.ofType "controls_repeat_ext" with
      values := [("TIMES", some 0)], statements := [("DO", some 7)] }]⟩

/-- The call of `p` assigns the variable that the loop counts up to: the parameter of `p`
    is not the variable that `q` sets. -/
example (nest : List Ref) (final : PassState) (hnest : ¬Scene.StandsUnder
      (ofLanguage .php plainly relayed) (lower "n") nest)
    (hp : (ofLanguage .php plainly relayed).InForce final 5 "p")
    (hq : (ofLanguage .php plainly relayed).InForce final 3 "q") :
    (ofLanguage .php plainly relayed).CanAssign nest relayed.graph.blocks[8] final (lower "n") := by
  have hbody : (ofLanguage .php plainly relayed).Executes relayed.graph.blocks[8] final none 7 :=
    .body (Graph.mem_chainFrom_self rfl)
  have hcallP : (ofLanguage .php plainly relayed).Calls final 7 5 :=
    ⟨_, _, "p", "p", ⟨rfl, rfl, _, rfl, rfl⟩, .inr rfl, rfl, hp, rfl⟩
  have hcallQ : (ofLanguage .php plainly relayed).Calls final 4 3 :=
    ⟨_, _, "q", "q", ⟨rfl, rfl, _, rfl, rfl⟩, .inr rfl, rfl, hq, rfl⟩
  have hinP := hbody.of_mem_stack hcallP rfl (Graph.mem_chainFrom_self rfl)
  have hinQ := hinP.of_mem_stack hcallQ rfl (Graph.mem_chainFrom_self rfl)
  refine ⟨some 3, 2, _, .variableAssignment, "n", hinQ, ⟨rfl, rfl, _, rfl, rfl⟩, .inl rfl, rfl, rfl,
    hnest, ?_⟩
  rintro ⟨block, hblock, params, name, hparams, hmem, -⟩
  cases hblock
  cases hparams
  cases hmem

/-- The loop over the variable `n`. -/
def variableLoop : CountedLoop where
  count := "$n"
  body := "  $n = $m;\n"
  counter := "$count2"
  bound := "$n"
  stored := false

/-- The rounds of a body that sets `n` to `m`. -/
def setRound (x y : String → Int) : Prop :=
  y = sums.assign x "$n" (sums.value x "$m")

/-- A round changes no variable but `n`. -/
theorem value_setRound {x y : String → Int} {text : String} (hround : setRound x y)
    (hvariable : Php.dialect.policy.IsVariable text) (hne : text ≠ "$n") :
    sums.value y text = sums.value x text := by
  rw [hround, value_sums hvariable, value_sums hvariable]
  exact Function.update_of_ne hne _ _

/-- A round of the loop over the variable `n` assigns that variable, wherever the loop
    stands. -/
theorem canAssign_variableLoop (nest : List Ref) (final : PassState) :
    (ofLanguage .php plainly (countedBy 0)).CanAssign nest (loopOver 0) final (lower "n") :=
  ⟨none, 4, _, .variableAssignment, "n", .body (Graph.mem_chainFrom_self rfl), ⟨rfl, rfl, _, rfl, rfl⟩,
    .inl rfl, rfl, rfl, trivial⟩

/-- The loop does three rounds if both variables are three, and one round if `m` is
    zero. -/
theorem runs_variableLoop :
    (∃ x, variableLoop.Runs sums setRound .php 3 (fun _ => 3) x) ∧
      ∃ x, variableLoop.Runs sums setRound .php 1 (fun v => if v = "$n" then 3 else 0) x :=
  ⟨⟨_, .round (by decide) rfl (.round (by decide) rfl (.round (by decide) rfl (.done (by decide))))⟩,
    ⟨_, .round (by decide) rfl (.done (by decide))⟩⟩

/-- The number of rounds of the loop over the variable `n` is not settled if a round
    assigns that variable. -/
theorem not_isSettled_variableLoop {assigns : String → Prop} (hassigned : assigns "$n") :
    ¬variableLoop.IsSettled .php assigns := by
  intro hsettled
  obtain ⟨⟨x, hthree⟩, y, hone⟩ := runs_variableLoop
  have hframe : ∀ s t, setRound s t → ∀ text ∈ [variableLoop.counter, variableLoop.bound],
      Php.dialect.policy.IsVariable text → ¬assigns text →
        sums.value t text = sums.value s text := by
    intro s t hround text _ hvariable hno
    refine value_setRound hround hvariable ?_
    rintro rfl
    exact hno hassigned
  exact absurd (hsettled sums lawful_sums setRound hframe hthree hone (by decide)) (by decide)

/-- A count that is a variable is neither fixed nor settled if the body assigns it. -/
theorem variableCount_not_settled :
    ((ofLanguage .php plainly (countedBy 0)).render 5 {}).1.toOption =
        some (.text (variableLoop.text Php.dialect)) ∧
      ∃ s u b t, (ofLanguage .php plainly (countedBy 0)).Made 6 5 (loopOver 0) s u b t variableLoop ∧
        ¬variableLoop.IsFixed .php
          ((ofLanguage .php plainly (countedBy 0)).Assigns (loopOver 0) u b t) ∧
        ¬variableLoop.IsSettled .php
          ((ofLanguage .php plainly (countedBy 0)).Assigns (loopOver 0) u b t) := by
  refine ⟨by decide +kernel, ?_⟩
  have hmade : ∃ u b t, (ofLanguage .php plainly (countedBy 0)).Made 6 5 (loopOver 0)
      { depth := 1, active := [5] } u b t variableLoop :=
    ⟨_, _, _, made_of_isSingleWord rfl (by decide +kernel) (Pass.eq_of_toOption (by decide +kernel))
      (Pass.eq_of_toOption (by decide +kernel)) (Pass.eq_of_toOption (by decide +kernel))⟩
  obtain ⟨u, b, t, hmade⟩ := hmade
  have hs : PassState.Named Php.dialect.policy { depth := 1, active := [5] } :=
    ⟨PassState.named_empty.assigned, PassState.named_empty.helpers⟩
  have hu := hmade.leads_count.extends.consistent NameTable.consistent_empty
  have ht := hmade.leads_names.extends.consistent hu
  have hname := count_of_countsVariable hs
    ⟨rfl, 0, _, rfl, ⟨rfl, rfl, _, rfl, rfl⟩, rfl⟩ hmade.count
  have hassigned : (ofLanguage .php plainly (countedBy 0)).Assigns (loopOver 0) u b t "$n" :=
    (assigns_identifier_iff hu ht hmade.leads_names hname).mpr (canAssign_variableLoop _ _)
  refine ⟨_, u, b, t, hmade, fun hfixed => ?_, not_isSettled_variableLoop hassigned⟩
  rcases hfixed rfl with hconstant | ⟨-, hno⟩
  · exact hconstant.1 (by decide)
  · exact hno hassigned

end Scene

end BlockScript
