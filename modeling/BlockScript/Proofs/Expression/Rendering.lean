import BlockScript.Proofs.Expression.Rules
import BlockScript.Proofs.Names.Reached

/-!
# Rendered expressions

A block renders to the text of the tree that it denotes. The answers to the
requests of its rule are sound because the blocks in its sockets do so, which
gives an induction on the room for nesting.

Results:

* `Scene.renderWithin_sound`: the text of a block reads as its tree.
* `Scene.parse_of_renderPlace`: the text of an expression parses to its tree if
  the words that it calls are no keywords, and else to nothing.
-/

namespace BlockScript

open BlockScript.Reading BlockScript.Text

/-! ## Rules of values -/

/-- Whether every rule has a known form, and is one of values if its form is. -/
def RuleTable.Known (table : RuleTable) : Prop :=
  ∀ type rule, table.lookup type = .ok rule →
    ∃ form, rule.handler = .form form ∧ rule.isValue = form.isValue

/-- Whether a rule has a known form, and is one of values if its form is. -/
def Rule.isKnown (rule : Rule) : Bool :=
  match rule.handler with
  | .form form => rule.isValue == form.isValue
  | .always _ => false

/-- The built-in rules have known forms. -/
theorem RuleTable.known_ofLanguage (language : String) : (ofLanguage language).Known := by
  intro type rule h
  have hall : (ofLanguage "").rules.all fun entry => entry.2.isKnown := by decide
  have hknown : rule.isKnown = true := by
    unfold lookup find? Json.find? at h
    cases hfind : (ofLanguage language).rules.find? fun entry => entry.1 = type with
    | none => simp [hfind] at h
    | some entry =>
      obtain rfl : entry.2 = rule := by simpa [hfind] using h
      exact List.all_eq_true.mp hall entry (List.mem_of_find?_eq_some hfind)
  unfold Rule.isKnown at hknown
  split at hknown
  · next form hform => exact ⟨form, hform, by simpa using hknown⟩
  · cases hknown

namespace Scene

variable {scene : Scene} {g : Grammar} {allowed : String → Bool} {book : PhraseBook}
  {final : PassState} {s t : PassState} {one : Ref → Pass Rendered} {tree : Ref → Option Expr}

/-! ## Sound answers -/

/-- Whether what a block renders to is the text of a tree if it is a value. -/
def RendersAs (scene : Scene) (g : Grammar) (allowed : String → Bool) (tree : Ref → Option Expr)
    (ref : Ref) : Rendered → Prop
  | .value code tier => scene.holdsValue ref = true ∧
      ∃ e, tree ref = some e ∧ Renders g allowed code tier e
  | .text _ => scene.holdsValue ref = false

/-- Whether blocks render to the texts of trees, given that identifiers stay up to
    a final state. -/
def AllRender (scene : Scene) (g : Grammar) (allowed : String → Bool) (final : PassState)
    (one : Ref → Pass Rendered) (tree : Ref → Option Expr) : Prop :=
  ∀ ref rendered s t, s.Named scene.dialect.policy → one ref s = (.ok rendered, t) →
    t.Grows final → scene.RendersAs g allowed tree ref rendered

theorem plugged_eq {block : Block Ref} {socket : String} {target : Ref}
    (h : block.valueInput socket = some target) :
    scene.plugged block socket = if scene.holdsValue target then some target else none := by
  simp [plugged, h, Option.filter]

/-- The text of a value socket. -/
theorem valueText_sound (h : scene.dialect.Faithful g allowed book)
    (hone : scene.AllRender g allowed final one tree) {block : Block Ref} {socket : String}
    {tier : Tier} {strict : Bool} {code : String} (hs : s.Named scene.dialect.policy)
    (hrun : scene.valueText one block socket tier strict s = (.ok code, t)) (ht : t.Grows final) :
    scene.SocketText g allowed tree block socket tier strict code := by
  unfold SocketText
  rcases valueText_eq_ok hrun with
    ⟨hinput, rfl, -⟩ | ⟨target, hinput, ⟨hone', rfl⟩ | ⟨inner, innerTier, hone', rfl⟩⟩
  · simp [plugged, hinput]
  · have hno : scene.holdsValue target = false := hone target _ _ _ hs hone' ht
    simp [plugged_eq hinput, hno]
  · obtain ⟨hvalue, e, htree, hrenders⟩ := hone target _ _ _ hs hone' ht
    have hfills := h.fills hrenders tier strict
    rw [plugged_eq hinput, if_pos hvalue, if_neg hrenders.reads.ne_empty]
    exact ⟨e, htree, hfills⟩

/-- The identifier of a name, once it is given out. -/
theorem nameOf_sound {kind : NameKind} {name text : String} (hs : s.Named scene.dialect.policy)
    (hrun : Pass.nameOf scene.dialect.policy kind name s = (.ok text, t)) (ht : t.Grows final) :
    final.identifier? scene.dialect.policy kind name = some text ∧
      ∃ word, text = scene.dialect.policy.sign kind ++ word ∧
        scene.dialect.policy.Fits kind word := by
  have hnamed := (scene.named_kept.nameOf kind name s).named hs
  rw [hrun] at hnamed
  obtain ⟨word, hlookup, rfl⟩ : ∃ word, t.names.assigned.lookup (kind, lower name) = some word ∧
      text = scene.dialect.policy.sign kind ++ word := by
    cases hrun
    cases hlookup : s.names.assigned.lookup (kind, lower name) with
    | some word => exact ⟨word, hlookup, rfl⟩
    | none => exact ⟨_, List.lookup_cons_self, rfl⟩
  exact ⟨by simp [PassState.identifier?, ht.assigned hlookup], word, rfl, hnamed.assigned hlookup⟩

/-- The function name of a helper, once it is given out. -/
theorem helper_sound {key template name : String} (hs : s.Named scene.dialect.policy)
    (hrun : Pass.helper scene.dialect.policy scene.indent key template s = (.ok name, t))
    (ht : t.Grows final) :
    final.helperName? key = some name ∧ scene.dialect.policy.Fits .procedure name := by
  have hnamed := (scene.named_kept.helper key template s).named hs
  rw [hrun] at hnamed
  have hfind : Json.find? t.definitions.helpers key = some name := by
    cases hrun
    cases hfind : Json.find? s.definitions.helpers key with
    | some word => exact hfind
    | none => exact (find?_insert _ key key _).trans (if_pos rfl)
  exact ⟨ht.helpers hfind, hnamed.helpers hfind⟩

/-- Every request is answered soundly. -/
theorem answer_sound (h : scene.dialect.Faithful g allowed book)
    (hone : scene.AllRender g allowed final one tree) {ref : Ref} {block : Block Ref}
    (request : Request) (reply : request.Answer) (s t : PassState)
    (hs : s.Named scene.dialect.policy)
    (hrun : scene.answer one ref block request s = (.ok reply, t)) (ht : t.Grows final) :
    scene.SoundAnswer g allowed final tree block request reply := by
  cases request with
  | value socket tier strict => exact valueText_sound h hone hs hrun ht
  | name kind name => exact nameOf_sound hs hrun ht
  | helper key template => exact helper_sound hs hrun ht
  | body | freshName | define | enclosingLoop | markContinue | loopContinued | warn => trivial

/-! ## Whole expressions -/

/-- A block renders to the text of the tree that it denotes. -/
theorem renderWithin_sound (h : scene.dialect.Faithful g allowed book) (hrules : scene.rules.Known)
    (room : Nat) :
    scene.AllRender g allowed final (scene.renderWithin room)
      (scene.treeWithin book final room) := by
  induction room with
  | zero =>
    intro ref rendered s t _ hrun
    cases hrun
  | succ room ih =>
    intro ref rendered s t hs hrun ht
    obtain ⟨less, hroom, hcases⟩ := renderWithin_eq_ok hrun
    obtain rfl : room = less := by omega
    rcases hcases with ⟨hno, rfl, -⟩ | ⟨block, rule, product, u, hblock, henabled, hlookup, hfollow,
      rfl, hconclude⟩
    · rcases hno with hnone | ⟨block, hblock, hdisabled⟩
      · simp [RendersAs, holdsValue, hnone]
      · simp [RendersAs, holdsValue, hblock, hdisabled]
    · obtain ⟨form, hform, hkind⟩ := hrules block.type rule hlookup
      have hfind : scene.rules.find? block.type = some rule := by
        unfold RuleTable.lookup at hlookup
        split at hlookup
        · next found => simpa [found] using hlookup
        · cases hlookup
      have hholds : scene.holdsValue ref = form.isValue := by
        simp [holdsValue, hblock, henabled, hfind, hkind]
      cases hvalue : form.isValue with
      | false =>
        cases product with
        | value code tier => simp [conclude, hkind, hvalue] at hconclude
        | nothing =>
          obtain rfl : .text "" = rendered := by simpa [conclude, hkind, hvalue] using hconclude
          exact hholds.trans hvalue
        | text code =>
          obtain rfl : .text (scene.statementText rule ref block code) = rendered := by
            simpa [conclude, hkind, hvalue] using hconclude
          exact hholds.trans hvalue
      | true =>
        have hnamed : PassState.Named scene.dialect.policy
            { s with depth := s.depth + 1, active := ref :: s.active } :=
          ⟨fun hname => hs.assigned hname, fun hname => hs.helpers hname⟩
        have hgrows : u.Grows final := ⟨fun hfirst => ht.assigned hfirst, fun hfirst => ht.helpers hfirst⟩
        rw [hform] at hfollow
        obtain ⟨code, tier, e, rfl, htree, hrenders⟩ :=
          of_gives (scene.named_kept.renderWithin room) (answer_sound h ih)
            (h.gives_recipe hvalue) hnamed hfollow hgrows
        obtain rfl : .value code tier = rendered := by
          simpa [conclude, hkind, hvalue] using hconclude
        refine ⟨hholds.trans hvalue, e, ?_, hrenders⟩
        simp [treeWithin, hblock, hfind, hform, henabled, htree]

/-- The text of an expression parses to its tree if the words that it calls are
    no keywords, and else to nothing. -/
theorem parse_of_renderPlace (h : scene.dialect.Faithful g allowed book)
    (hrules : scene.rules.Known) {ref : Ref} {code : String} {tier : Tier}
    (hs : scene.Reached s) (hrun : scene.renderPlace (some ref) s = (.ok (.value code tier), t)) :
    ∃ e, scene.operatorTree book t ref = some e ∧
      (e.calls allowed = true →
        ∃ parsed, g.parse code = some parsed ∧ Regrouped e parsed ∧ parsed.chainFree = true) ∧
      (e.calls allowed = false → g.parse code = none) := by
  obtain ⟨ref', href, hrender⟩ := placeCode_eq_value hrun
  cases href
  have hgrows : t.Grows t := ⟨id, id⟩
  obtain ⟨-, e, htree, hrenders⟩ :=
    renderWithin_sound h hrules _ ref _ _ _ hs.named hrender hgrows
  have hreads : Reads g allowed g.levels code e := hrenders.reads.weaken (List.dropWhile_suffix _)
  exact ⟨e, htree, hreads.parse_eq h.proper, hreads.parse_eq_none h.marks⟩

end Scene

/-- A negated comparison whose sides are empty. -/
def Workspace.negatedComparison : Workspace where
  tops := [1]
  graph := ⟨#[{ Block.ofType "logic_compare" with fields := [("OP", .text "EQ")] },
    { Block.ofType "logic_negate" with values := [("BOOL", some 0)] }]⟩

end BlockScript
