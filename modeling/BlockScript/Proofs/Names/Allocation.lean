import Mathlib.Data.Finset.Card
import BlockScript.Proofs.Names.Identifier

/-!
# Giving out identifiers

The search for a free candidate is bounded by the number of words to avoid. It
never gets to its bound: every candidate that clashes does so with a word of its
own, so among one more candidates than there are such words one is free. A search
that goes on as long as there is a clash, without any bound, ends where it does.

Results:

* `NameTable.count_le_of_clashes`: how many candidates in a row can clash.
* `NameTable.exists_free`: some candidate within the bound is free.
* `NameTable.allocate_spec`: the identifier given out is the first candidate
  without a clash.
* `NameTable.searchEnds_iff`: where a search without a bound ends.
* `NameTable.allocate_first`: an allocation ends with the first free candidate.
-/

namespace BlockScript.NameTable

open BlockScript.Text

variable {policy : NamePolicy} {table : NameTable} {kind : NameKind} {base text : String}
  {start count last : Nat}

/-! ## The bounded search -/

/-- A candidate that clashes has the lower-case form of a word to avoid. -/
theorem lower_mem_of_clashes (h : table.clashes policy kind text = true) :
    lower text ∈ (table.avoided policy).map lower := by
  simp only [clashes, Bool.or_eq_true, Bool.and_eq_true, List.contains_iff_mem, List.any_eq_true,
    decide_eq_true_eq] at h
  rcases h with hmem | ⟨-, word, hword, heq⟩
  · exact List.mem_map_of_mem hmem
  · exact heq ▸ List.mem_map_of_mem hword

/-- There are no more candidates that clash than words to avoid: each clashes with a word
    of its own. -/
theorem count_le_of_clashes (hbase : IsIdentifier base) {count : Nat}
    (h : ∀ earlier < count, table.clashes policy kind (candidate base earlier) = true) :
    count ≤ (table.avoided policy).toFinset.card := by
  let forms := (Finset.range count).image fun earlier => lower (candidate base earlier)
  have hforms : forms.card = count := by
    rw [Finset.card_image_of_injective _ fun _ _ heq => lower_candidate_injective hbase heq,
      Finset.card_range]
  have hsubset : forms ⊆ (table.avoided policy).toFinset.image lower := by
    intro form hform
    obtain ⟨earlier, hearlier, rfl⟩ := Finset.mem_image.mp hform
    have hmem := lower_mem_of_clashes (h earlier (Finset.mem_range.mp hearlier))
    obtain ⟨word, hword, heq⟩ := List.mem_map.mp hmem
    exact Finset.mem_image.mpr ⟨word, List.mem_toFinset.mpr hword, heq⟩
  calc count = forms.card := hforms.symm
    _ ≤ ((table.avoided policy).toFinset.image lower).card := Finset.card_le_card hsubset
    _ ≤ (table.avoided policy).toFinset.card := Finset.card_image_le

/-- Among the candidates within the bound one is free. -/
theorem exists_free (policy : NamePolicy) (table : NameTable) (kind : NameKind)
    (hbase : IsIdentifier base) :
    ∃ count ≤ (table.avoided policy).length,
      table.clashes policy kind (candidate base count) = false := by
  by_contra hnone
  have hall : ∀ earlier < (table.avoided policy).length + 1,
      table.clashes policy kind (candidate base earlier) = true := by
    intro earlier hearlier
    by_contra hfree
    exact hnone ⟨earlier, by omega, by simpa using hfree⟩
  have hcount := count_le_of_clashes hbase hall
  have hlength := (table.avoided policy).toFinset_card_le
  omega

/-- The search finds the first free candidate if there is one within its
    bound. -/
theorem firstFree_spec {fuel start : Nat}
    (h : ∃ count, start ≤ count ∧ count ≤ start + fuel ∧
      table.clashes policy kind (candidate base count) = false) :
    ∃ count, table.firstFree policy kind base fuel start = candidate base count ∧
      table.clashes policy kind (candidate base count) = false ∧
      ∀ earlier, start ≤ earlier → earlier < count →
        table.clashes policy kind (candidate base earlier) = true := by
  induction fuel generalizing start with
  | zero =>
    obtain ⟨count, hstart, hbound, hfree⟩ := h
    obtain rfl : count = start := by omega
    exact ⟨count, rfl, hfree, fun earlier _ _ => by omega⟩
  | succ fuel ih =>
    rw [firstFree]
    by_cases hclash : table.clashes policy kind (candidate base start) = true
    · rw [if_pos hclash]
      obtain ⟨count, hstart, hbound, hfree⟩ := h
      have hne : count ≠ start := by
        rintro rfl
        rw [hclash] at hfree
        cases hfree
      have hlater : ∃ count, start + 1 ≤ count ∧ count ≤ start + 1 + fuel ∧
          table.clashes policy kind (candidate base count) = false :=
        ⟨count, by omega, by omega, hfree⟩
      obtain ⟨found, hfound, hfree', hearlier⟩ := ih hlater
      refine ⟨found, hfound, hfree', fun earlier hle hlt => ?_⟩
      by_cases heq : earlier = start
      · exact heq ▸ hclash
      · exact hearlier earlier (by omega) hlt
    · rw [if_neg hclash]
      exact ⟨start, rfl, by simpa using hclash, fun earlier _ _ => by omega⟩

/-- The identifier given out is the first free candidate. -/
theorem allocate_spec (policy : NamePolicy) (table : NameTable) (name : String)
    (kind : NameKind) :
    ∃ count, (table.allocate policy name kind).1 = candidate (safeName name) count ∧
      table.clashes policy kind (candidate (safeName name) count) = false ∧
      ∀ earlier < count,
        table.clashes policy kind (candidate (safeName name) earlier) = true := by
  obtain ⟨free, hbound, hfree⟩ := exists_free policy table kind (isIdentifier_safeName name)
  have hwithin : ∃ count, 0 ≤ count ∧ count ≤ 0 + (table.avoided policy).length ∧
      table.clashes policy kind (candidate (safeName name) count) = false :=
    ⟨free, Nat.zero_le _, by omega, hfree⟩
  obtain ⟨count, hcount, hfree', hearlier⟩ := firstFree_spec hwithin
  exact ⟨count, hcount, hfree', fun earlier hlt => hearlier earlier (Nat.zero_le _) hlt⟩

theorem isIdentifier_allocate (policy : NamePolicy) (table : NameTable) (name : String)
    (kind : NameKind) :
    IsIdentifier (table.allocate policy name kind).1 := by
  obtain ⟨count, hcount, -⟩ := allocate_spec policy table name kind
  rw [hcount]
  exact isIdentifier_candidate_safeName name count

theorem clashes_allocate (policy : NamePolicy) (table : NameTable) (name : String)
    (kind : NameKind) :
    table.clashes policy kind (table.allocate policy name kind).1 = false := by
  obtain ⟨count, hcount, hfree, -⟩ := allocate_spec policy table name kind
  rw [hcount]
  exact hfree

/-! ## Free identifiers -/

/-- Whether an identifier is free for names of a kind: it is neither taken nor reserved,
    and where case does not count it is no other spelling of such a word either. -/
def IsFree (policy : NamePolicy) (table : NameTable) (kind : NameKind) (text : String) : Prop :=
  text ∉ table.taken ∧ text ∉ policy.reserved ∧
    (kind ∈ policy.caseInsensitive →
      ∀ word, word ∈ table.taken ∨ word ∈ policy.reserved → lower word ≠ lower text)

theorem clashes_eq_false_iff :
    table.clashes policy kind text = false ↔ table.IsFree policy kind text := by
  simp only [clashes, IsFree, avoided, Bool.or_eq_false_iff, Bool.and_eq_false_imp,
    List.contains_eq_mem, decide_eq_false_iff_not, decide_eq_true_eq, List.any_eq_false,
    List.mem_append, not_or, and_assoc]

theorem clashes_eq_true_iff :
    table.clashes policy kind text = true ↔ ¬table.IsFree policy kind text := by
  rw [← clashes_eq_false_iff, Bool.not_eq_false]

/-! ## The search without a bound -/

/-- The search from candidate number `start + 1` on ends at number `last + 1`: it goes to
    the next candidate as long as there is a clash. -/
inductive SearchEnds (policy : NamePolicy) (table : NameTable) (kind : NameKind) (base : String) :
    Nat → Nat → Prop where
  | found {count : Nat} (h : table.clashes policy kind (candidate base count) = false) :
    SearchEnds policy table kind base count count
  | next {count last : Nat} (h : table.clashes policy kind (candidate base count) = true)
    (rest : SearchEnds policy table kind base (count + 1) last) :
    SearchEnds policy table kind base count last

/-- A search ends at the first free candidate from its start on. -/
theorem SearchEnds.first (h : table.SearchEnds policy kind base start last) :
    start ≤ last ∧ table.IsFree policy kind (candidate base last) ∧
      ∀ count, start ≤ count → count < last → ¬table.IsFree policy kind (candidate base count) := by
  induction h with
  | found hfree => exact ⟨le_rfl, clashes_eq_false_iff.mp hfree, fun count _ _ => by omega⟩
  | @next start last hclash _ ih =>
    obtain ⟨hle, hfree, hclashes⟩ := ih
    refine ⟨by omega, hfree, fun count hstart hlast => ?_⟩
    by_cases heq : count = start
    · exact heq ▸ clashes_eq_true_iff.mp hclash
    · exact hclashes count (by omega) hlast

/-- A search gets through the candidates that clash. -/
theorem searchEnds_of_first (hle : start ≤ last)
    (hfree : table.IsFree policy kind (candidate base last))
    (hclashes : ∀ count, start ≤ count → count < last →
      ¬table.IsFree policy kind (candidate base count)) :
    table.SearchEnds policy kind base start last := by
  induction hdistance : last - start generalizing start with
  | zero =>
    obtain rfl : start = last := by omega
    exact .found (clashes_eq_false_iff.mpr hfree)
  | succ distance ih =>
    have hclash := hclashes start le_rfl (by omega)
    have hrest : table.SearchEnds policy kind base (start + 1) last :=
      ih (by omega) (fun count hstart => hclashes count (by omega)) (by omega)
    exact .next (clashes_eq_true_iff.mpr hclash) hrest

/-- A search ends at the first free candidate from its start on, and nowhere else. -/
theorem searchEnds_iff : table.SearchEnds policy kind base start last ↔
    start ≤ last ∧ table.IsFree policy kind (candidate base last) ∧
      ∀ count, start ≤ count → count < last → ¬table.IsFree policy kind (candidate base count) :=
  ⟨SearchEnds.first, fun ⟨hle, hfree, hclashes⟩ => searchEnds_of_first hle hfree hclashes⟩

theorem SearchEnds.unique {other : Nat} (h : table.SearchEnds policy kind base start last)
    (hother : table.SearchEnds policy kind base start other) : other = last := by
  obtain ⟨hle, hfree, hclashes⟩ := h.first
  obtain ⟨hle', hfree', hclashes'⟩ := hother.first
  rcases Nat.lt_trichotomy other last with hlt | heq | hlt
  · exact absurd hfree' (hclashes other hle' hlt)
  · exact heq
  · exact absurd hfree (hclashes' last hle hlt)

/-! ## Allocation -/

/-- An allocation ends, and gives the first of the candidates `base`, `base2`, `base3`, …
    that is free. It tries at most one candidate more than there are words taken or
    reserved. -/
theorem allocate_first (policy : NamePolicy) (table : NameTable) (name : String)
    (kind : NameKind) :
    ∃ last, (∀ count, table.SearchEnds policy kind (safeName name) 0 count ↔ count = last) ∧
      (table.allocate policy name kind).1 = candidate (safeName name) last ∧
      table.IsFree policy kind (candidate (safeName name) last) ∧
      (∀ earlier < last, ¬table.IsFree policy kind (candidate (safeName name) earlier)) ∧
      last + 1 ≤ (table.taken.toFinset ∪ policy.reserved.toFinset).card + 1 := by
  obtain ⟨last, hlast, hfree, hclashes⟩ := allocate_spec policy table name kind
  have hfirst : table.IsFree policy kind (candidate (safeName name) last) ∧
      ∀ earlier < last, ¬table.IsFree policy kind (candidate (safeName name) earlier) :=
    ⟨clashes_eq_false_iff.mp hfree,
      fun earlier hlt => clashes_eq_true_iff.mp (hclashes earlier hlt)⟩
  have hends : table.SearchEnds policy kind (safeName name) 0 last :=
    searchEnds_iff.mpr ⟨Nat.zero_le _, hfirst.1, fun earlier _ hlt => hfirst.2 earlier hlt⟩
  have hcount : last ≤ (table.avoided policy).toFinset.card :=
    count_le_of_clashes (isIdentifier_safeName name) hclashes
  rw [avoided, List.toFinset_append] at hcount
  refine ⟨last, fun count => ⟨hends.unique, ?_⟩, hlast, hfirst.1, hfirst.2, by omega⟩
  rintro rfl
  exact hends

/-- The words `x` and `x2` are taken, and `x3` is reserved in another spelling. -/
example :
    (allocate ⟨["X3"], "", [.procedure]⟩ ⟨[], ["x2", "x"]⟩ "x" .procedure).1 = "x4" := by
  decide +kernel

end BlockScript.NameTable
