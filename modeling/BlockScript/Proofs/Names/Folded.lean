import BlockScript.Proofs.Names.History

/-!
# Identifiers of kinds that ignore case

Where case does not count in the identifiers of a kind, a new identifier differs in more
than case from all reserved words and from all identifiers given out before it, of any
kind. It is for the later identifier to keep away: where case counts again, an identifier
may be one of an earlier kind in another case.

An identifier is new unless it was given out for a logical name that has one already. Such
a name gets its identifier again, and by then others can stand in between.

Results:

* `NameHistory.guarded_step`: every request keeps new identifiers away from earlier ones.
* `lower_append_cancel`: a sign ahead of two identifiers makes no difference to their case.
* `folded_words_apart`: identifiers of kinds that ignore case, in any history.
-/

namespace BlockScript

open BlockScript.Text

/-! ## Case behind a sign -/

/-- Lower case of letters behind other characters. How the last capital sigma of these is
    written can depend on the letters, but not how long it is. -/
theorem lowerFrom_append (cs : List Char) {ds : List Char} (hds : ∀ d ∈ ds, d.toNat < 128)
    (cased : Bool) : ∃ start, lowerFrom cased (cs ++ ds) = start ++ ds.map Char.toLower ∧
      start.length = (lowerFrom cased cs).length := by
  induction cs generalizing cased with
  | nil => exact ⟨[], lowerFrom_eq_map hds cased, rfl⟩
  | cons c cs ih =>
    obtain ⟨start, hstart, hlength⟩ :=
      ih (if inRanges caseIgnorableRanges c then cased else inRanges casedRanges c)
    rw [List.cons_append, lowerFrom, lowerFrom]
    simp only [hstart, List.length_append, ← hlength]
    by_cases hsigma : c = 'Σ'
    · exact ⟨_, by rw [← List.append_assoc], by simp [hsigma, Nat.add_comm]⟩
    · exact ⟨_, by rw [← List.append_assoc], by simp [hsigma]⟩

/-- A sign ahead of two identifiers makes no difference to their case. -/
theorem lower_append_cancel {sign a b : String} (ha : IsIdentifier a) (hb : IsIdentifier b)
    (h : lower (sign ++ a) = lower (sign ++ b)) : lower a = lower b := by
  unfold lower at h
  rw [String.ofList_inj, String.toList_append, String.toList_append] at h
  obtain ⟨start, hstart, hlength⟩ := lowerFrom_append sign.toList ha.toNat_lt false
  obtain ⟨start', hstart', hlength'⟩ := lowerFrom_append sign.toList hb.toNat_lt false
  rw [hstart, hstart'] at h
  rw [lower_eq_map ha.toNat_lt, lower_eq_map hb.toNat_lt,
    (List.append_inj h (hlength.trans hlength'.symm)).2]

/-! ## New identifiers -/

deriving instance DecidableEq for Grant

/-- Whether an identifier given out after some others is not that of a logical name which
    one of them was given out for. -/
def Grant.New (grant : Grant) (earlier : List Grant) : Prop :=
  ∀ other ∈ earlier, ¬grant.SameName other

/-- Whether an identifier that is new after some others differs in more than case from them
    and from the reserved words, if its kind ignores case. -/
def Grant.Guarded (policy : NamePolicy) (grant : Grant) (earlier : List Grant) : Prop :=
  grant.kind ∈ policy.caseInsensitive → grant.New earlier →
    (∀ word ∈ policy.reserved, lower word ≠ lower (grant.word policy)) ∧
      ∀ other ∈ earlier, lower (other.word policy) ≠ lower (grant.word policy)

namespace NameHistory

variable {policy : NamePolicy} {history : NameHistory}

/-- Whether every identifier given out is kept away from the earlier ones, and all words
    that a table has taken were given out. -/
structure Guarded (policy : NamePolicy) (history : NameHistory) : Prop where
  given {word : String} (h : word ∈ history.table.taken) :
    ∃ grant ∈ history.grants, grant.word policy = word
  guarded {later earlier : List Grant} {grant : Grant}
    (h : history.grants = later ++ grant :: earlier) : grant.Guarded policy earlier

theorem guarded_empty : Guarded policy {} where
  given h := by simp at h
  guarded h := by simp at h

/-- One more identifier is given out. -/
theorem Guarded.grant (h : history.Guarded policy) {table : NameTable} {grant : Grant}
    (htaken : ∀ word ∈ table.taken, word ∈ history.table.taken ∨ grant.word policy = word)
    (hgrant : grant.Guarded policy history.grants) :
    Guarded policy ⟨table, grant :: history.grants⟩ where
  given hword := by
    rcases htaken _ hword with hold | hnew
    · obtain ⟨other, hother, hsame⟩ := h.given hold
      exact ⟨other, List.mem_cons_of_mem _ hother, hsame⟩
    · exact ⟨grant, List.mem_cons_self, hnew⟩
  guarded {later earlier other} hsplit := by
    cases later with
    | nil =>
      cases hsplit
      exact hgrant
    | cons first later => exact h.guarded (List.cons.inj hsplit).2

/-- An identifier that the table finds free is kept away from all earlier ones. -/
theorem Apart.guarded_allocate (happart : history.Apart policy) {grant : Grant} (name : String)
    (hword : grant.word policy = (history.table.allocate policy name grant.kind).1) :
    grant.Guarded policy history.grants := by
  intro hkind _
  have hfree := NameTable.clashes_allocate policy history.table name grant.kind
  rw [← hword] at hfree
  simp only [NameTable.clashes, NameTable.avoided, Bool.or_eq_false_iff, Bool.and_eq_false_iff,
    List.contains_eq_mem, decide_eq_false_iff_not, List.any_eq_false, decide_eq_true_eq,
    List.mem_append] at hfree
  have hfolded := hfree.2.resolve_left fun hno => hno hkind
  exact ⟨fun word hmem => hfolded word (.inr hmem),
    fun other hother => hfolded _ (.inl (happart.exists_word hother).2)⟩

/-- A logical name that has an identifier gets no new one. -/
theorem Guarded.get (h : history.Guarded policy) (happart : history.Apart policy) (name : String)
    (kind : NameKind) : (history.get policy name kind).Guarded policy := by
  have hiff := (happart.get name kind).word_eq_iff
  unfold NameHistory.get NameTable.get at hiff ⊢
  dsimp only at hiff ⊢
  cases hlookup : history.table.assigned.lookup (kind, lower name) with
  | some word =>
    rw [hlookup] at hiff
    refine h.grant (fun _ hold => .inl hold) fun _ hnew => ?_
    obtain ⟨other, hother, hsame⟩ := h.given (happart.taken (mem_of_lookup hlookup))
    have hword : Grant.word policy ⟨kind, some name, policy.sign kind ++ word⟩ = word :=
      Grant.word_eq rfl
    exact absurd (((List.pairwise_cons.mp hiff).1 other hother).mp (hword.trans hsame.symm))
      (hnew other hother)
  | none =>
    refine h.grant (fun word hword => ?_) (happart.guarded_allocate name (Grant.word_eq rfl))
    rcases List.mem_cons.mp hword with rfl | hold
    · exact .inr (Grant.word_eq rfl)
    · exact .inl hold

theorem Guarded.distinct (h : history.Guarded policy) (happart : history.Apart policy)
    (name : String) (kind : NameKind) : (history.distinct policy name kind).Guarded policy := by
  refine h.grant (fun word hword => ?_) (happart.guarded_allocate name (Grant.word_eq rfl))
  rcases List.mem_cons.mp hword with rfl | hold
  · exact .inr (Grant.word_eq rfl)
  · exact .inl hold

theorem Guarded.getAll (kind : NameKind) (names : List String) {history : NameHistory}
    (h : history.Guarded policy) (happart : history.Apart policy) :
    (getAll policy kind names history).Guarded policy := by
  induction names generalizing history with
  | nil => exact h
  | cons name names ih => exact ih (h.get happart name kind) (happart.get name kind)

/-- Every request keeps new identifiers away from earlier ones. -/
theorem guarded_step (h : history.Guarded policy) (happart : history.Apart policy)
    (request : NameRequest) : (history.step policy request).Guarded policy := by
  cases request with
  | get name kind => exact h.get happart name kind
  | distinct name kind => exact h.distinct happart name kind
  | populate names kind =>
    rw [step_populate]
    exact h.getAll kind names happart
  | reset => exact guarded_empty

/-- New identifiers are kept away from earlier ones in any history. -/
theorem guarded_run (policy : NamePolicy) (requests : List NameRequest) :
    (run policy requests).Guarded policy := by
  suffices h : ∀ history : NameHistory, history.Apart policy → history.Guarded policy →
      (requests.foldl (NameHistory.step policy) history).Guarded policy from
    h {} apart_empty guarded_empty
  intro history happart h
  induction requests generalizing history with
  | nil => exact h
  | cons request requests ih => exact ih _ (happart.step request) (guarded_step h happart request)

/-! ## Any two identifiers -/

/-- Identifiers of kinds that ignore case are the same if they differ in case only. What
    was given out again is traced back to where it was new. -/
theorem word_eq_of_lower {grants : List Grant}
    (hguarded : ∀ later grant earlier, grants = later ++ grant :: earlier →
      grant.Guarded policy earlier)
    (hiff : grants.Pairwise fun first second =>
      first.word policy = second.word policy ↔ first.SameName second)
    {first second : Grant} (hfirst : first ∈ grants) (hsecond : second ∈ grants)
    (hkind : first.kind ∈ policy.caseInsensitive) (hkind' : second.kind ∈ policy.caseInsensitive)
    (hlower : lower (first.word policy) = lower (second.word policy)) :
    first.word policy = second.word policy := by
  induction grants generalizing first second with
  | nil => simp at hfirst
  | cons latest earlier ih =>
    obtain ⟨hhead, hrest⟩ := List.pairwise_cons.mp hiff
    have hback : ∀ {a b : Grant}, a ∈ earlier → b ∈ earlier → a.kind ∈ policy.caseInsensitive →
        b.kind ∈ policy.caseInsensitive → lower (a.word policy) = lower (b.word policy) →
        a.word policy = b.word policy := fun ha hb =>
      ih (fun later grant before hsplit =>
        hguarded (latest :: later) grant before (by rw [hsplit]; rfl)) hrest ha hb
    -- the latest identifier and an earlier one
    have hlatest : ∀ {other : Grant}, other ∈ earlier → latest.kind ∈ policy.caseInsensitive →
        other.kind ∈ policy.caseInsensitive →
        lower (other.word policy) = lower (latest.word policy) →
        other.word policy = latest.word policy := by
      intro other hother hkind hkind' hlower
      by_cases hnew : latest.New earlier
      · exact absurd hlower ((hguarded [] latest earlier rfl hkind hnew).2 other hother)
      · simp only [Grant.New, not_forall, not_not] at hnew
        obtain ⟨same, hsame, hname⟩ := hnew
        have hword := (hhead same hsame).mpr hname
        rw [hword] at hlower ⊢
        exact hback hother hsame hkind' (hname.1 ▸ hkind) hlower
    rcases List.mem_cons.mp hfirst with rfl | hold
    · rcases List.mem_cons.mp hsecond with rfl | hold'
      · rfl
      · exact (hlatest hold' hkind hkind' hlower.symm).symm
    · rcases List.mem_cons.mp hsecond with rfl | hold'
      · exact hlatest hold hkind' hkind hlower
      · exact hback hold hold' hkind hkind' hlower

end NameHistory

/-- Whatever a name table is asked for, an identifier that is new since the last reset, and
    of a kind that ignores case, differs in more than case from all reserved words and from
    all identifiers given out before it. So identifiers of such kinds that differ in case
    only were given out for one logical name, and two names of one such kind have texts
    that differ in case only just if the names do. -/
theorem folded_words_apart (policy : NamePolicy) (requests : List NameRequest) :
    (∀ later grant earlier,
      (NameHistory.run policy requests).grants = later ++ grant :: earlier →
      grant.kind ∈ policy.caseInsensitive → grant.New earlier →
      (∀ word ∈ policy.reserved, lower word ≠ lower (grant.word policy)) ∧
        ∀ other ∈ earlier, lower (other.word policy) ≠ lower (grant.word policy)) ∧
      (NameHistory.run policy requests).grants.Pairwise fun first second =>
        first.kind ∈ policy.caseInsensitive → second.kind ∈ policy.caseInsensitive →
          (lower (first.word policy) = lower (second.word policy) ↔ first.SameName second) ∧
          ∀ name name', first.name = some name → second.name = some name' →
            first.kind = second.kind →
            (lower first.text = lower second.text ↔ lower name = lower name') := by
  have happart := NameHistory.apart_run policy requests
  have hguarded := NameHistory.guarded_run policy requests
  refine ⟨fun later grant earlier hsplit => hguarded.guarded hsplit, ?_⟩
  refine happart.word_eq_iff.imp_of_mem fun {first second} hfirst hsecond hiff hkind hkind' => ?_
  have hwords : lower (first.word policy) = lower (second.word policy) ↔ first.SameName second :=
    ⟨fun hlower => hiff.mp (NameHistory.word_eq_of_lower (fun _ _ _ h => hguarded.guarded h)
      happart.word_eq_iff hfirst hsecond hkind hkind' hlower), fun hsame => by rw [hiff.mpr hsame]⟩
  refine ⟨hwords, fun name name' hname hname' hsame => ?_⟩
  obtain ⟨htext, htaken⟩ := happart.exists_word hfirst
  obtain ⟨htext', htaken'⟩ := happart.exists_word hsecond
  constructor
  · intro hlower
    rw [htext, htext', hsame] at hlower
    have hword := lower_append_cancel (happart.fits htaken).1 (happart.fits htaken').1 hlower
    obtain ⟨-, _, _, h, h', hnames⟩ := hwords.mp hword
    cases hname.symm.trans h
    cases hname'.symm.trans h'
    exact hnames
  · intro hnames
    rw [htext, htext', hsame, hiff.mpr ⟨hsame, name, name', hname, hname', hnames⟩]

/-- A function named like another one and like a variable, up to case. -/
theorem folded_words_apart_functions :
    let policy : NamePolicy := { reserved := ["FOO3"], caseInsensitive := [.procedure] }
    let earlier : List Grant := [⟨.variable, some "FOO", "FOO"⟩, ⟨.procedure, some "Foo", "Foo"⟩]
    let grant : Grant := ⟨.procedure, none, "foo2"⟩
    (NameHistory.run policy
        [.get "Foo" .procedure, .get "FOO" .variable, .distinct "foo" .procedure]).grants =
        [] ++ grant :: earlier ∧
      grant.kind ∈ policy.caseInsensitive ∧ grant.New earlier ∧
      (∀ word ∈ policy.reserved, lower word ≠ lower (grant.word policy)) ∧
        ∀ other ∈ earlier, lower (other.word policy) ≠ lower (grant.word policy) := by
  intro policy earlier grant
  have hgrants : (NameHistory.run policy
      [.get "Foo" .procedure, .get "FOO" .variable, .distinct "foo" .procedure]).grants =
      [] ++ grant :: earlier := by decide +kernel
  have hkind : grant.kind ∈ policy.caseInsensitive := List.mem_cons_self
  have hnew : grant.New earlier := by
    rintro other - ⟨-, _, _, hnone, -⟩
    cases hnone
  exact ⟨hgrants, hkind, hnew,
    (folded_words_apart policy _).1 [] grant earlier hgrants hkind hnew⟩

end BlockScript
