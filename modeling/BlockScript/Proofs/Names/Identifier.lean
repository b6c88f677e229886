import BlockScript.Names

/-!
# Identifiers and their case

Every base, and every candidate made from it, is an identifier of ASCII letters,
digits and underscores. On such words the lower-case mapping goes character by
character, and the candidates of one base differ even if case does not count.

Results:

* `isIdentifier_candidate_safeName`: every candidate for a name is an
  identifier.
* `lower_eq_map`: the lower-case form of an ASCII text.
* `lower_candidate_injective`: no two candidates differ in case only.
-/

namespace BlockScript

open BlockScript.Text

/-- Whether a word is a letter or underscore and then letters, digits and
    underscores, all of them ASCII. -/
def IsIdentifier (word : String) : Prop :=
  ∃ c cs, word.toList = c :: cs ∧ isSafeChar c = true ∧ c.isDigit = false ∧
    ∀ d ∈ cs, isSafeChar d = true

/-! ## Characters -/

theorem toNat_lt_of_isSafeChar {c : Char} (h : isSafeChar c = true) : c.toNat < 128 := by
  change ((decide (c.val ≥ 'A'.val ∧ c.val ≤ 'Z'.val) ||
    decide (c.val ≥ 'a'.val) && decide (c.val ≤ 'z'.val) ||
    decide (c.val ≥ '0'.val) && decide (c.val ≤ '9'.val) || decide (c = '_')) = true) at h
  simp only [Bool.or_eq_true, Bool.and_eq_true, decide_eq_true_eq, ge_iff_le,
    UInt32.le_iff_toNat_le] at h
  rcases h with ((⟨-, h⟩ | ⟨-, h⟩) | ⟨-, h⟩) | rfl
  · have : c.val.toNat ≤ 90 := h
    show c.val.toNat < 128
    omega
  · have : c.val.toNat ≤ 122 := h
    show c.val.toNat < 128
    omega
  · have : c.val.toNat ≤ 57 := h
    show c.val.toNat < 128
    omega
  · decide

/-- A property of all safe characters is shown for each of them. -/
theorem forall_safeChar {p : Char → Prop}
    (h : ∀ n : Fin 128, isSafeChar (Char.ofNat n) = true → p (Char.ofNat n)) {c : Char}
    (hc : isSafeChar c = true) : p c := by
  have hcase := h ⟨c.toNat, toNat_lt_of_isSafeChar hc⟩
  rw [Char.ofNat_toNat] at hcase
  exact hcase hc

theorem isSafeChar_of_isDigit {c : Char} (h : c.isDigit = true) : isSafeChar c = true := by
  simp [isSafeChar, Char.isAlphanum, h]

/-! ## Lower case of ASCII texts -/

theorem lowerChar_eq_toLower {c : Char} (h : c.toNat < 128) : lowerChar c = [c.toLower] := by
  have hall : ∀ n : Fin 128, lowerChar (Char.ofNat n) = [(Char.ofNat n).toLower] := by decide
  have := hall ⟨c.toNat, h⟩
  simpa using this

theorem lowerFrom_eq_map {cs : List Char} (h : ∀ c ∈ cs, c.toNat < 128) (cased : Bool) :
    lowerFrom cased cs = cs.map Char.toLower := by
  induction cs generalizing cased with
  | nil => rfl
  | cons c cs ih =>
    have hc := h c (by simp)
    have hsigma : c ≠ 'Σ' := by
      rintro rfl
      exact absurd hc (by decide)
    simp only [lowerFrom, hsigma, if_false, lowerChar_eq_toLower hc,
      ih fun d hd => h d (by simp [hd]), List.map_cons, List.singleton_append]

/-- The lower-case form of an ASCII text. -/
theorem lower_eq_map {text : String} (h : ∀ c ∈ text.toList, c.toNat < 128) :
    lower text = String.ofList (text.toList.map Char.toLower) := by
  rw [lower, lowerFrom_eq_map h]

/-! ## Bases and candidates -/

theorem IsIdentifier.toNat_lt {word : String} (h : IsIdentifier word) :
    ∀ c ∈ word.toList, c.toNat < 128 := by
  obtain ⟨c, cs, hword, hc, -, hcs⟩ := h
  intro d hd
  rw [hword] at hd
  rcases List.mem_cons.mp hd with rfl | hd
  · exact toNat_lt_of_isSafeChar hc
  · exact toNat_lt_of_isSafeChar (hcs d hd)

/-- The base of a name is an identifier. -/
theorem isIdentifier_safeName (name : String) : IsIdentifier (safeName name) := by
  have hsafe : ∀ d ∈ name.toList.map (fun c => if isSafeChar c then c else '_'),
      isSafeChar d = true := by
    intro d hd
    obtain ⟨c, -, rfl⟩ := List.mem_map.mp hd
    by_cases hc : isSafeChar c = true
    · simp [hc]
    · rw [if_neg hc]
      decide
  unfold safeName
  split
  · exact ⟨'u', _, rfl, by decide, by decide, List.all_eq_true.mp (by decide)⟩
  · next c rest hmap =>
    rw [hmap] at hsafe
    have hrest : ∀ d ∈ rest, isSafeChar d = true := fun d hd => hsafe d (by simp [hd])
    by_cases hdigit : c.isDigit = true
    · rw [if_pos hdigit]
      refine ⟨'m', 'y' :: '_' :: c :: rest, by simp, by decide, by decide, ?_⟩
      intro d hd
      simp only [List.mem_cons] at hd
      rcases hd with rfl | rfl | rfl | hd
      · decide
      · decide
      · exact hsafe d (by simp)
      · exact hrest d hd
    · rw [if_neg hdigit]
      exact ⟨c, rest, by simp, hsafe c (by simp), by simpa using hdigit, hrest⟩

/-- A candidate made from an identifier is an identifier. -/
theorem IsIdentifier.candidate {base : String} (h : IsIdentifier base) (count : Nat) :
    IsIdentifier (candidate base count) := by
  obtain ⟨c, cs, hbase, hc, hdigit, hcs⟩ := h
  unfold BlockScript.candidate
  split
  · exact ⟨c, cs, hbase, hc, hdigit, hcs⟩
  · refine ⟨c, cs ++ (toString (count + 1)).toList, by simp [hbase], hc, hdigit, ?_⟩
    intro d hd
    rcases List.mem_append.mp hd with hd | hd
    · exact hcs d hd
    · rw [Nat.toString_eq_ofList_toDigits, String.toList_ofList] at hd
      exact isSafeChar_of_isDigit (Nat.isDigit_of_mem_toDigits (by omega) (by omega) hd)

/-- Every candidate for a name is an identifier. -/
theorem isIdentifier_candidate_safeName (name : String) (count : Nat) :
    IsIdentifier (candidate (safeName name) count) :=
  (isIdentifier_safeName name).candidate count

theorem toDigits_injective {m n : Nat} (h : Nat.toDigits 10 m = Nat.toDigits 10 n) : m = n := by
  rw [← Nat.ofDigitChars_toDigits (b := 10) (n := m) (by omega) (by omega), h,
    Nat.ofDigitChars_toDigits (by omega) (by omega)]

theorem toLower_of_isDigit {c : Char} (h : c.isDigit = true) : c.toLower = c := by
  have hupper : ¬(c.val ≥ 'A'.val ∧ c.val ≤ 'Z'.val) := by
    simp only [Char.isDigit, Bool.and_eq_true, decide_eq_true_eq, UInt32.le_iff_toNat_le] at h
    have h9 : c.val.toNat ≤ 57 := h.2
    rintro ⟨hA, -⟩
    have : 65 ≤ c.val.toNat := hA
    omega
  exact dif_neg hupper

theorem map_toLower_toDigits (n : Nat) :
    (Nat.toDigits 10 n).map Char.toLower = Nat.toDigits 10 n := by
  have hid : ∀ c ∈ Nat.toDigits 10 n, c.toLower = id c := fun c hc =>
    toLower_of_isDigit (Nat.isDigit_of_mem_toDigits (by omega) (by omega) hc)
  rw [List.map_congr_left hid, List.map_id]

/-- The lower-case form of a candidate: that of the base, and the number. -/
theorem toList_lower_candidate {base : String} (hbase : IsIdentifier base) (count : Nat) :
    (lower (candidate base count)).toList = base.toList.map Char.toLower ++
      if count = 0 then [] else Nat.toDigits 10 (count + 1) := by
  rw [lower_eq_map (hbase.candidate count).toNat_lt, String.toList_ofList]
  unfold candidate
  split
  · simp
  · rw [Nat.toString_eq_ofList_toDigits, String.toList_append, List.map_append,
      String.toList_ofList, map_toLower_toDigits]

/-- No two candidates for an identifier differ in case only. -/
theorem lower_candidate_injective {base : String} (hbase : IsIdentifier base) {i j : Nat}
    (h : lower (candidate base i) = lower (candidate base j)) : i = j := by
  have hlist := congrArg String.toList h
  rw [toList_lower_candidate hbase, toList_lower_candidate hbase, List.append_cancel_left_eq] at hlist
  by_cases hi : i = 0 <;> by_cases hj : j = 0
  · rw [hi, hj]
  · rw [if_pos hi, if_neg hj] at hlist
    exact absurd hlist.symm Nat.toDigits_ne_nil
  · rw [if_neg hi, if_pos hj] at hlist
    exact absurd hlist Nat.toDigits_ne_nil
  · rw [if_neg hi, if_neg hj] at hlist
    have := toDigits_injective hlist
    omega

end BlockScript
