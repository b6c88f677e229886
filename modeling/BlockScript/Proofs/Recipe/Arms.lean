import BlockScript.Proofs.Graph.Links
import BlockScript.Proofs.Names.Identifier
import BlockScript.Recipe.Control
import Mathlib.Data.List.Nodup
import Mathlib.Data.List.Perm.Subperm

/-!
# The arms of a conditional

A conditional has arms as long as the socket for the next condition is there. A
block has no more of these sockets than sockets at all, so there is an end.

Results:

* `Recipe.arms_spec`: the arms are those up to the first socket that is not there.
-/

namespace BlockScript

namespace Recipe

theorem conditionSocket_injective {m n : Nat} (h : conditionSocket m = conditionSocket n) :
    m = n := by
  have hlist := congrArg String.toList h
  rw [conditionSocket, conditionSocket, Nat.toString_eq_ofList_toDigits,
    Nat.toString_eq_ofList_toDigits, String.toList_append, String.toList_append,
    List.append_cancel_left_eq, String.toList_ofList, String.toList_ofList] at hlist
  exact toDigits_injective hlist

/-- A socket of a block has an entry. -/
theorem mem_sockets_of_hasInput {block : Block Ref} {socket : String}
    (h : block.hasInput socket = true) :
    socket ∈ block.values.map Prod.fst ++ block.statements.map Prod.fst := by
  rcases (by simpa [Block.hasInput] using h : (Json.find? block.values socket).isSome = true ∨
    (Json.find? block.statements socket).isSome = true) with hvalue | hstatement
  · obtain ⟨plug, hplug⟩ := Option.isSome_iff_exists.mp hvalue
    exact List.mem_append_left _ (List.mem_map.mpr ⟨_, Json.mem_of_find? hplug, rfl⟩)
  · obtain ⟨plug, hplug⟩ := Option.isSome_iff_exists.mp hstatement
    exact List.mem_append_right _ (List.mem_map.mpr ⟨_, Json.mem_of_find? hplug, rfl⟩)

/-- The numbers at the start of a range that satisfy a test. -/
theorem takeWhile_range' (p : Nat → Bool) (start length : Nat) :
    ∃ count ≤ length, (List.range' start length).takeWhile p = List.range' start count ∧
      (∀ n, start ≤ n → n < start + count → p n = true) ∧
      (count < length → p (start + count) = false) := by
  induction length generalizing start with
  | zero => exact ⟨0, Nat.le_refl 0, rfl, fun n _ _ => by omega, fun h => by omega⟩
  | succ length ih =>
    rw [List.range'_succ]
    by_cases hp : p start = true
    · obtain ⟨count, hle, heq, hall, hend⟩ := ih (start + 1)
      refine ⟨count + 1, by omega, ?_, fun n hn hn' => ?_, fun h => ?_⟩
      · rw [List.takeWhile_cons_of_pos hp, heq, List.range'_succ]
      · rcases Nat.eq_or_lt_of_le hn with rfl | hlt
        · exact hp
        · exact hall n hlt (by omega)
      · rw [show start + (count + 1) = start + 1 + count by omega]
        exact hend (by omega)
    · refine ⟨0, by omega, ?_, fun n _ _ => by omega, fun _ => by simpa using hp⟩
      rw [List.takeWhile_cons_of_neg hp]
      rfl

/-- The arms of a conditional are those up to the first condition socket that is not
    there. -/
theorem arms_spec (block : Block Ref) :
    ∃ count, arms block = List.range (count + 1) ∧
      (∀ arm, 0 < arm → arm ≤ count → block.hasInput (conditionSocket arm) = true) ∧
      block.hasInput (conditionSocket (count + 1)) = false := by
  obtain ⟨count, hle, heq, hall, hend⟩ :=
    takeWhile_range' (fun arm => block.hasInput (conditionSocket arm)) 1
      (block.values.length + block.statements.length)
  have hall' : ∀ arm, 0 < arm → arm ≤ count → block.hasInput (conditionSocket arm) = true :=
    fun arm hpos hle => hall arm hpos (by omega)
  refine ⟨count, ?_, hall', ?_⟩
  · unfold arms
    dsimp only
    rw [heq, List.range_eq_range', List.range'_succ]
  · rcases Nat.eq_or_lt_of_le hle with hfull | hlt
    · refine Bool.eq_false_iff.mpr fun hmore => ?_
      -- All sockets are taken by the arms before.
      have hsub : (List.range' 1 (count + 1)).map conditionSocket ⊆
          block.values.map Prod.fst ++ block.statements.map Prod.fst := by
        intro socket hsocket
        obtain ⟨arm, harm, rfl⟩ := List.mem_map.mp hsocket
        obtain ⟨hpos, hlast⟩ := List.mem_range'_1.mp harm
        refine mem_sockets_of_hasInput ?_
        rcases Nat.eq_or_lt_of_le (show arm ≤ count + 1 by omega) with rfl | hbefore
        · exact hmore
        · exact hall' arm (by omega) (by omega)
      have hnodup : ((List.range' 1 (count + 1)).map conditionSocket).Nodup :=
        List.Nodup.map (fun _ _ => conditionSocket_injective) List.nodup_range'
      have hlength := (hnodup.subperm hsub).length_le
      simp at hlength
      omega
    · rw [Nat.add_comm]
      exact hend hlt

end Recipe

end BlockScript
