import BlockScript.Proofs.Suite.Lines

/-!
# Statements by indentation

How a language without closing words reads lines as statements. The lines further to
the right belong to the line ahead of them, and where they end the next line stands
as far to the left as that one. The arms of a conditional follow its first one.

Results:

* `nest_layout`: what is laid out by depth is read back.
* `arrange_append`: statements one after the other.
* `outline_of_arrange`: no line is lost or moved.
* `Suite.read_layout`: the statements of lines that are laid out by depth.
-/

namespace BlockScript

variable {α β : Type}

/-! ## Nesting -/

/-- The lines with those inside them. The lines inside a line are the next ones that
    stand further to the right; the one after them has to stand below it. -/
def nest : List (Nat × α) → Option (Outline α)
  | [] => some .nil
  | (width, label) :: lines => do
    let inside ← nest (lines.takeWhile fun line => width < line.1)
    let rest ← nest (lines.dropWhile fun line => width < line.1)
    if (lines.dropWhile fun line => width < line.1).head?.all fun line => line.1 = width then
      some (.line label inside rest)
    else none
termination_by lines => lines.length
decreasing_by
  · exact Nat.lt_succ_of_le (List.takeWhile_sublist _).length_le
  · exact Nat.lt_succ_of_le (List.dropWhile_sublist _).length_le

theorem shift_shift (m n : Nat) (lines : List (Nat × α)) :
    (lines.map (shift n)).map (shift m) = lines.map (shift (m + n)) := by
  simp [shift, Function.comp_def, Nat.add_assoc]

/-- The first line of an outline stands at the left. -/
theorem Outline.fst_of_head_layout {width : Nat} {outline : Outline α} {line : Nat × α}
    (h : line ∈ (outline.layout width).head?) : line.1 = 0 := by
  cases outline with
  | nil => simp [layout] at h
  | line label inside rest =>
    obtain rfl : (0, label) = line := by simpa [layout] using h
    rfl

/-- What is laid out by depth is read back. -/
theorem nest_layout {width : Nat} (hwidth : 0 < width) (left : Nat) (outline : Outline α) :
    nest ((outline.layout width).map (shift left)) = some outline := by
  induction outline generalizing left with
  | nil => simp [Outline.layout, nest]
  | line label inside rest ihInside ihRest =>
    have hdeeper : ∀ line ∈ (inside.layout width).map (shift (left + width)), left < line.1 := by
      intro line hline
      obtain ⟨inner, -, rfl⟩ := List.mem_map.mp hline
      simp only [shift]
      omega
    have hbelow : ∀ line ∈ ((rest.layout width).map (shift left)).head?, line.1 = left := by
      intro line hline
      rw [List.head?_map] at hline
      obtain ⟨first, hfirst, rfl⟩ := Option.map_eq_some_iff.mp hline
      simp [shift, Outline.fst_of_head_layout hfirst]
    specialize ihInside (left + width)
    specialize ihRest left
    rw [Outline.layout, List.cons_append, List.map_cons, List.map_append, shift_shift]
    generalize (inside.layout width).map (shift (left + width)) = inner at *
    generalize (rest.layout width).map (shift left) = after at *
    have hstay : ∀ line ∈ inner, decide (left < line.1) = true := fun line hline => by
      simpa using hdeeper line hline
    have hafter : after.takeWhile (fun line => decide (left < line.1)) = [] ∧
        after.dropWhile (fun line => decide (left < line.1)) = after := by
      cases after with
      | nil => simp
      | cons line after => simp [hbelow line rfl]
    have hall : (after.head?.all fun line => decide (line.1 = left)) = true := by
      rw [Option.all_eq_true]
      exact fun line hline => by simpa using hbelow line hline
    simp only [shift, Nat.add_zero]
    rw [nest, List.takeWhile_append_of_pos hstay, List.dropWhile_append_of_pos hstay, hafter.1,
      hafter.2, List.append_nil, ihInside, ihRest]
    simp [hall]

/-! ## Statements -/

/-- What a line is: a statement with none inside it, the header of a loop or a procedure,
    or of the first, a further or the last arm of a conditional. -/
inductive LineKind where
  | simple
  | header
  | start
  | arm
  | last
  deriving DecidableEq, Repr

/-- Statements one after the other. The arms of a conditional after the first one are
    blocks one after the other. -/
inductive Suite (α : Type) where
  | done
  | line (label : α) (rest : Suite α)
  | block (header : α) (body rest : Suite α)
  | choice (header : α) (body arms rest : Suite α)
  deriving DecidableEq, Repr

namespace Suite

/-- Whether there is no statement. -/
def isDone : Suite α → Bool
  | .done => true
  | _ => false

/-- Statements after others. -/
def append : Suite α → Suite α → Suite α
  | .done, more => more
  | .line label rest, more => .line label (append rest more)
  | .block header body rest, more => .block header body (append rest more)
  | .choice header body arms rest, more => .choice header body arms (append rest more)

instance : Append (Suite α) := ⟨append⟩

@[simp]
theorem done_append (more : Suite α) : .done ++ more = more := rfl

@[simp]
theorem line_append (label : α) (rest more : Suite α) :
    .line label rest ++ more = .line label (rest ++ more) := rfl

@[simp]
theorem block_append (header : α) (body rest more : Suite α) :
    .block header body rest ++ more = .block header body (rest ++ more) := rfl

@[simp]
theorem choice_append (header : α) (body arms rest more : Suite α) :
    .choice header body arms rest ++ more = .choice header body arms (rest ++ more) := rfl

/-- Statements one after the other. -/
def concat : List (Suite α) → Suite α
  | [] => .done
  | first :: rest => first ++ concat rest

/-- Other labels for the same lines. -/
def map (f : α → β) : Suite α → Suite β
  | .done => .done
  | .line label rest => .line (f label) (map f rest)
  | .block header body rest => .block (f header) (map f body) (map f rest)
  | .choice header body arms rest =>
    .choice (f header) (map f body) (map f arms) (map f rest)

theorem isDone_map (f : α → β) (suite : Suite α) : (suite.map f).isDone = suite.isDone := by
  cases suite <;> rfl

/-- The lines of statements, with those inside them. -/
def outline : Suite α → Outline α
  | .done => .nil
  | .line label rest => .line label .nil rest.outline
  | .block header body rest => .line header body.outline rest.outline
  | .choice header body arms rest => .line header body.outline (arms.outline ++ rest.outline)

/-- Arms and statements with one more line ahead of them, where `body` is inside it. Only
    a header has lines inside it, and it has some. -/
def ahead (label : α) (body arms more : Suite α) : LineKind → Option (Suite α × Suite α)
  | .simple => if body.isDone && arms.isDone then some (.done, .line label more) else none
  | .header => if !body.isDone && arms.isDone then some (.done, .block label body more) else none
  | .start => if !body.isDone then some (.done, .choice label body arms more) else none
  | .arm => if !body.isDone then some (.block label body arms, more) else none
  | .last =>
    if !body.isDone && arms.isDone then some (.block label body .done, more) else none

end Suite

/-- The arms that go on with a conditional further up, and the statements after them. -/
def arrange (kind : α → LineKind) : Outline α → Option (Suite α × Suite α)
  | .nil => some (.done, .done)
  | .line label inside rest =>
    (arrange kind inside).bind fun within => (arrange kind rest).bind fun after =>
      if within.1.isDone then Suite.ahead label within.2 after.1 after.2 (kind label) else none

variable {kind : α → LineKind} {outline more : Outline α} {arms suite others : Suite α}

theorem arrange_line {label : α} {inside rest : Outline α} {body : Suite α}
    (hinside : arrange kind inside = some (.done, body))
    (hrest : arrange kind rest = some (arms, suite)) :
    arrange kind (.line label inside rest) = Suite.ahead label body arms suite (kind label) := by
  simp [arrange, hinside, hrest, Suite.isDone]

theorem exists_of_arrange {label : α} {inside rest : Outline α}
    (h : arrange kind (.line label inside rest) = some (arms, suite)) :
    ∃ body loose after, arrange kind inside = some (.done, body) ∧
      arrange kind rest = some (loose, after) ∧
      Suite.ahead label body loose after (kind label) = some (arms, suite) := by
  rw [arrange, Option.bind_eq_some_iff] at h
  obtain ⟨⟨within, body⟩, hinside, h⟩ := h
  obtain ⟨⟨loose, after⟩, hrest, h⟩ := Option.bind_eq_some_iff.mp h
  rw [Option.ite_none_right_eq_some] at h
  cases within with
  | done => exact ⟨body, loose, after, hinside, hrest, h.2⟩
  | _ => cases h.1

/-- Statements one after the other. -/
theorem arrange_append (h : arrange kind outline = some (arms, suite))
    (hmore : arrange kind more = some (.done, others)) :
    arrange kind (outline ++ more) = some (arms, suite ++ others) := by
  induction outline generalizing arms suite with
  | nil =>
    cases h
    exact hmore
  | line label inside rest _ ih =>
    obtain ⟨body, loose, after, hinside, hrest, hahead⟩ := exists_of_arrange h
    rw [Outline.line_append, arrange_line hinside (ih hrest)]
    cases hkind : kind label <;>
      simp only [hkind, Suite.ahead, Option.ite_none_right_eq_some, Option.some.injEq,
        Prod.mk.injEq] at hahead ⊢ <;>
      obtain ⟨hfits, rfl, rfl⟩ := hahead <;> exact ⟨hfits, rfl, rfl⟩

/-- No line is lost or moved. -/
theorem outline_of_arrange (h : arrange kind outline = some (arms, suite)) :
    arms.outline ++ suite.outline = outline := by
  induction outline generalizing arms suite with
  | nil =>
    cases h
    rfl
  | line label inside rest ihInside ihRest =>
    obtain ⟨body, loose, after, hinside, hrest, hahead⟩ := exists_of_arrange h
    specialize ihInside hinside
    specialize ihRest hrest
    subst ihRest
    obtain rfl : body.outline = inside := by simpa [Suite.outline] using ihInside
    cases hkind : kind label <;>
      simp only [hkind, Suite.ahead, Option.ite_none_right_eq_some, Option.some.injEq,
        Prod.mk.injEq, Bool.and_eq_true] at hahead <;>
      obtain ⟨hfits, rfl, rfl⟩ := hahead
    · cases body with
      | done =>
        cases loose with
        | done => rfl
        | _ => cases hfits.2
      | _ => cases hfits.1
    · cases loose with
      | done => rfl
      | _ => cases hfits.2
    · rfl
    · rfl
    · cases loose with
      | done => rfl
      | _ => cases hfits.2

/-- Other labels for the same lines. -/
theorem arrange_map (kind : β → LineKind) (f : α → β) (outline : Outline α) :
    arrange kind (outline.map f) =
      (arrange (fun label => kind (f label)) outline).map (Prod.map (Suite.map f) (Suite.map f)) := by
  induction outline with
  | nil => rfl
  | line label inside rest ihInside ihRest =>
    rw [Outline.map_line, arrange, ihInside, ihRest, arrange]
    cases arrange (fun label => kind (f label)) inside with
    | none => rfl
    | some within =>
      cases arrange (fun label => kind (f label)) rest with
      | none => rfl
      | some after =>
        simp only [Option.map_some, Option.bind_some, Prod.map_fst, Prod.map_snd, Suite.isDone_map]
        split
        · cases kind (f label) <;> simp only [Suite.ahead, Suite.isDone_map] <;> split <;> rfl
        · rfl

theorem arrange_congr {kind' : α → LineKind}
    (h : outline.All fun label => kind label = kind' label) :
    arrange kind outline = arrange kind' outline := by
  induction outline with
  | nil => rfl
  | line label inside rest ihInside ihRest =>
    rw [arrange, arrange, ihInside h.2.1, ihRest h.2.2, h.1]

/-! ## Reading -/

/-- The statements of lines that start at the left. -/
def Suite.read (kind : α → LineKind) (lines : List (Nat × α)) : Option (Suite α) :=
  if lines.head?.all fun line => line.1 = 0 then
    (nest lines).bind fun outline => (arrange kind outline).bind fun (loose, suite) =>
      if loose.isDone then some suite else none
  else none

/-- The statements of lines that are laid out by depth. -/
theorem Suite.read_layout {width : Nat} (hwidth : 0 < width)
    (h : arrange kind outline = some (.done, suite)) :
    Suite.read kind (outline.layout width) = some suite := by
  have hnest := nest_layout hwidth 0 outline
  have hshift : (outline.layout width).map (shift 0) = outline.layout width := by
    simp [show shift 0 = (id : Nat × α → Nat × α) from funext fun line => by simp [shift]]
  rw [hshift] at hnest
  have hleft : ((outline.layout width).head?.all fun line => decide (line.1 = 0)) = true := by
    rw [Option.all_eq_true]
    intro line hline
    simpa using Outline.fst_of_head_layout hline
  rw [Suite.read, if_pos hleft, hnest, Option.bind_some, h]
  rfl

end BlockScript
