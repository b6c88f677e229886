import BlockScript.Proofs.Reading.Lexis
import BlockScript.Proofs.Suite.Reader

/-!
# Statements by brackets

How a language with closing words or braces reads clauses as statements. A clause is a
statement, or it opens or closes a block, and the arms of a conditional close each other.
The clauses are gathered from the right, so that what is inside a block is known when
its opening comes.

Results:

* `gather_append`: clauses one after the other.
* `eq_nil_or_endsBody_of_gather`: what follows the last statement of a body.
* `readClauses_flatMap`: clauses that can be told apart are read one by one.
-/

namespace BlockScript

open BlockScript.Reading

variable {α β : Type}

/-! ## Clauses in a row -/

/-- The labels of an outline in their order. -/
def Outline.lines : Outline α → List α
  | .nil => []
  | .line label inside rest => label :: (lines inside ++ lines rest)

namespace Outline

@[simp]
theorem lines_nil : lines (.nil : Outline α) = [] := rfl

@[simp]
theorem lines_block (label : α) (inside : Outline α) :
    (block label inside).lines = label :: inside.lines := by
  simp [block, lines]

@[simp]
theorem lines_single (label : α) : (single label).lines = [label] := by
  simp [single]

@[simp]
theorem lines_append (a b : Outline α) : (a ++ b).lines = a.lines ++ b.lines := by
  induction a with
  | nil => rfl
  | line label inside rest _ ih => simp [lines, ih]

theorem lines_map (f : α → β) (outline : Outline α) :
    (outline.map f).lines = outline.lines.map f := by
  induction outline with
  | nil => rfl
  | line label inside rest ihInside ihRest => simp [lines, ihInside, ihRest]

theorem all_iff_lines {p : α → Prop} {outline : Outline α} :
    outline.All p ↔ ∀ label ∈ outline.lines, p label := by
  induction outline with
  | nil => simp
  | line label inside rest ihInside ihRest =>
    simp only [all_line, lines, ihInside, ihRest, List.forall_mem_cons, List.forall_mem_append]

end Outline

/-! ## Kinds -/

/-- What a clause is: a statement with none inside it, one that has to be the last of its
    body, what opens a loop or a procedure, what opens the first, a further or the last arm
    of a conditional, or what closes a block. -/
inductive ClauseKind where
  | simple
  | final
  | header
  | start
  | arm
  | last
  | closer
  deriving DecidableEq, Repr

/-- Whether a clause ends the body that it follows. -/
def ClauseKind.endsBody : ClauseKind → Bool
  | .arm | .last | .closer => true
  | _ => false

/-! ## Gathering -/

/-- A body whose end has been read: the arms of the same conditional that follow it, and
    those of its own statements that have been read. -/
structure BodyEnd (α : Type) where
  arms : Suite α
  suite : Suite α

/-- Bodies whose ends have been read, the innermost first, with one more clause ahead. -/
def BodyEnd.push (label : α) : ClauseKind → List (BodyEnd α) → Option (List (BodyEnd α))
  | .simple, ⟨arms, suite⟩ :: bodies => some (⟨arms, .line label suite⟩ :: bodies)
  | .final, ⟨arms, .done⟩ :: bodies => some (⟨arms, .line label .done⟩ :: bodies)
  | .header, ⟨.done, body⟩ :: ⟨arms, suite⟩ :: bodies =>
    some (⟨arms, .block label body suite⟩ :: bodies)
  | .start, ⟨later, body⟩ :: ⟨arms, suite⟩ :: bodies =>
    some (⟨arms, .choice label body later suite⟩ :: bodies)
  | .arm, ⟨arms, body⟩ :: bodies => some (⟨.block label body arms, .done⟩ :: bodies)
  | .last, ⟨.done, body⟩ :: bodies => some (⟨.block label body .done, .done⟩ :: bodies)
  | .closer, bodies => some (⟨.done, .done⟩ :: bodies)
  | _, _ => none

/-- Bodies whose ends have been read, with clauses ahead. -/
def gather (kind : α → ClauseKind) (bodies : List (BodyEnd α)) : List α → Option (List (BodyEnd α))
  | [] => some bodies
  | clause :: clauses => (gather kind bodies clauses).bind (BodyEnd.push clause (kind clause))

/-- The statements that clauses are, if everything that is opened is closed and the other
    way round. -/
def Suite.ofClauses (kind : α → ClauseKind) (clauses : List α) : Option (Suite α) :=
  match gather kind [⟨.done, .done⟩] clauses with
  | some [⟨.done, suite⟩] => some suite
  | _ => none

variable {kind : α → ClauseKind} {bodies : List (BodyEnd α)} {clauses more : List α} {clause : α}
  {suite : Suite α}

@[simp]
theorem gather_nil : gather kind bodies [] = some bodies := rfl

@[simp]
theorem gather_cons : gather kind bodies (clause :: clauses) =
    (gather kind bodies clauses).bind (BodyEnd.push clause (kind clause)) := rfl

/-- Clauses one after the other. -/
theorem gather_append : gather kind bodies (clauses ++ more) =
    (gather kind bodies more).bind fun ends => gather kind ends clauses := by
  induction clauses with
  | nil => simp
  | cons clause clauses ih => simp [ih, Option.bind_assoc]

theorem gather_of_append {ends : List (BodyEnd α)}
    (h : gather kind bodies (clauses ++ more) = some ends) :
    ∃ later, gather kind bodies more = some later := by
  rw [gather_append, Option.bind_eq_some_iff] at h
  obtain ⟨later, hlater, -⟩ := h
  exact ⟨later, hlater⟩

/-- Only the end of the body comes after the last statement. -/
theorem eq_nil_or_endsBody_of_gather {arms : Suite α} {ends : List (BodyEnd α)}
    (h : gather kind bodies clauses = some (⟨arms, .done⟩ :: ends)) :
    clauses = [] ∨ ∃ next rest, clauses = next :: rest ∧ (kind next).endsBody = true := by
  cases clauses with
  | nil => exact .inl rfl
  | cons next rest =>
    refine .inr ⟨next, rest, rfl, ?_⟩
    obtain ⟨later, -, hpush⟩ := Option.bind_eq_some_iff.mp h
    unfold BodyEnd.push at hpush
    split at hpush <;> simp_all [ClauseKind.endsBody]

/-- What stands right after a last statement ends its body. -/
theorem final_followed {ends : List (BodyEnd α)}
    (h : gather kind bodies (clause :: clauses) = some ends) (hfinal : kind clause = .final) :
    clauses = [] ∨ ∃ next rest, clauses = next :: rest ∧ (kind next).endsBody = true := by
  obtain ⟨later, hlater, hpush⟩ := Option.bind_eq_some_iff.mp h
  rw [hfinal] at hpush
  match later, hpush with
  | ⟨arms, .done⟩ :: ends, _ => exact eq_nil_or_endsBody_of_gather hlater

/-! ## Other labels -/

/-- Other labels for the same clauses. -/
def BodyEnd.map (f : α → β) (body : BodyEnd α) : BodyEnd β :=
  ⟨body.arms.map f, body.suite.map f⟩

theorem BodyEnd.push_map (f : α → β) (label : α) (kind : ClauseKind) (bodies : List (BodyEnd α)) :
    push (f label) kind (bodies.map (BodyEnd.map f)) =
      (push label kind bodies).map (List.map (BodyEnd.map f)) := by
  cases kind with
  | simple | arm => cases bodies <;> rfl
  | final => rcases bodies with _ | ⟨⟨arms, _ | _ | _ | _⟩, bodies⟩ <;> rfl
  | header => rcases bodies with _ | ⟨⟨_ | _ | _ | _, body⟩, _ | ⟨next, bodies⟩⟩ <;> rfl
  | start => rcases bodies with _ | ⟨body, _ | ⟨next, bodies⟩⟩ <;> rfl
  | last => rcases bodies with _ | ⟨⟨_ | _ | _ | _, body⟩, bodies⟩ <;> rfl
  | closer => rfl

theorem gather_map (f : α → β) (kind : β → ClauseKind) (bodies : List (BodyEnd α))
    (clauses : List α) :
    gather kind (bodies.map (BodyEnd.map f)) (clauses.map f) =
      (gather (fun clause => kind (f clause)) bodies clauses).map (List.map (BodyEnd.map f)) := by
  induction clauses with
  | nil => rfl
  | cons clause clauses ih =>
    rw [List.map_cons, gather_cons, ih, gather_cons, Option.bind_map, Option.map_bind]
    congr 1
    funext ends
    exact BodyEnd.push_map f clause (kind (f clause)) ends

theorem gather_congr {kind' : α → ClauseKind} (h : ∀ clause ∈ clauses, kind clause = kind' clause) :
    gather kind bodies clauses = gather kind' bodies clauses := by
  induction clauses with
  | nil => rfl
  | cons clause clauses ih =>
    obtain ⟨hclause, hclauses⟩ := List.forall_mem_cons.mp h
    rw [gather_cons, gather_cons, ih hclauses, hclause]

theorem Suite.ofClauses_map (f : α → β) (kind : β → ClauseKind) (clauses : List α) :
    Suite.ofClauses kind (clauses.map f) =
      (Suite.ofClauses (fun clause => kind (f clause)) clauses).map (Suite.map f) := by
  have hgather := gather_map f kind [⟨.done, .done⟩] clauses
  simp only [List.map_cons, List.map_nil, BodyEnd.map, Suite.map] at hgather
  rw [Suite.ofClauses, hgather, Suite.ofClauses]
  cases gather (fun clause => kind (f clause)) [⟨.done, .done⟩] clauses with
  | none => rfl
  | some ends => rcases ends with _ | ⟨⟨_ | _ | _ | _, suite⟩, _ | ⟨next, ends⟩⟩ <;> rfl

theorem Suite.ofClauses_congr {kind' : α → ClauseKind}
    (h : ∀ clause ∈ clauses, kind clause = kind' clause) :
    Suite.ofClauses kind clauses = Suite.ofClauses kind' clauses := by
  rw [Suite.ofClauses, gather_congr h, Suite.ofClauses]

theorem Suite.ofClauses_eq_some (h : Suite.ofClauses kind clauses = some suite) :
    gather kind [⟨.done, .done⟩] clauses = some [⟨.done, suite⟩] := by
  unfold Suite.ofClauses at h
  split at h
  · next hgather =>
    cases h
    exact hgather
  · cases h

example : Suite.ofClauses id [ClauseKind.start, .simple, .last, .final, .closer] =
    some (.choice .start (.line .simple .done)
      (.block .last (.line .final .done) .done) .done) := by
  decide

/-! ## Reading clauses -/

/-- Reads clauses up to the last token, where `read` takes one from the start. -/
def readClauses (read : List Token → Option (α × List Token)) (tokens : List Token) :
    Option (List α) :=
  if tokens = [] then some []
  else
    match read tokens with
    | none => none
    | some (clause, rest) =>
      if rest.length < tokens.length then (readClauses read rest).map (clause :: ·) else none
termination_by tokens.length

variable {read : List Token → Option (α × List Token)} {tokens rest : List Token}

theorem readClauses_cons (hne : tokens ≠ []) (h : read (tokens ++ rest) = some (clause, rest)) :
    readClauses read (tokens ++ rest) = (readClauses read rest).map (clause :: ·) := by
  have hlength : rest.length < (tokens ++ rest).length := by
    have := List.length_pos_of_ne_nil hne
    simp only [List.length_append]
    omega
  rw [readClauses, if_neg (by simp [hne]), h]
  simp only [if_pos hlength]

/-- Clauses that can be told apart are read one by one. -/
theorem readClauses_flatMap {lines : List β} {tokens : β → List Token} {clause : β → α}
    (h : ∀ before line after, lines = before ++ line :: after → tokens line ≠ [] ∧
      read (tokens line ++ after.flatMap tokens) = some (clause line, after.flatMap tokens)) :
    readClauses read (lines.flatMap tokens) = some (lines.map clause) := by
  induction lines with
  | nil => simp [readClauses]
  | cons line lines ih =>
    obtain ⟨hne, hread⟩ := h [] line lines rfl
    rw [List.flatMap_cons, readClauses_cons hne hread, ih fun before other after hsplit =>
      h (line :: before) other after (by rw [hsplit, List.cons_append])]
    rfl

end BlockScript
