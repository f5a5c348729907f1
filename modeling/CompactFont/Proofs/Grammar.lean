import CompactFont.Proofs.Program

set_option autoImplicit false

namespace CompactFont

def Type2Op.Accepts (op : Type2Op) (count : Nat) : Prop :=
  match op with
  | .hstem | .vstem | .hstemhm | .vstemhm | .hintmask | .cntrmask => count % 2 = 0
  | .rmoveto => count = 2
  | .hmoveto | .vmoveto => count = 1
  | .rlineto => count % 2 = 0
  | .hlineto | .vlineto => True
  | .rrcurveto => count % 6 = 0
  | .hhcurveto | .vvcurveto | .hvcurveto | .vhcurveto => count % 4 = 0 ∨ count % 4 = 1
  | .rcurveline => count % 6 = 2
  | .rlinecurve => 6 ≤ count ∧ count % 2 = 0
  | .flex => count = 13
  | .hflex => count = 7
  | .hflex1 => count = 9
  | .flex1 => count = 11
  | _ => False

namespace Type2

variable {N : Type}

-- The tokens after the width, from inside a subpath or from before the first one.
inductive Follows : Bool → List (Token Type2Op N) → Prop where
  | stems {inSubpath : Bool} {rest : List (Token Type2Op N)} (op : Type2Op) (arguments : List N)
      (declares : op.declaresStems = true) (count : op.Accepts arguments.length)
      (follows : Follows inSubpath rest) :
      Follows inSubpath (arguments.map .number ++ .operator op :: rest)
  | mask {inSubpath : Bool} {rest : List (Token Type2Op N)} (op : Type2Op) (arguments : List N)
      (bytes : Bytes) (takes : op.takesMask = true) (count : op.Accepts arguments.length)
      (follows : Follows inSubpath rest) :
      Follows inSubpath (arguments.map .number ++ .operator op :: .mask bytes :: rest)
  | move {inSubpath : Bool} {rest : List (Token Type2Op N)} (op : Type2Op) (arguments : List N)
      (starts : op.startsSubpath = true) (count : op.Accepts arguments.length)
      (follows : Follows true rest) :
      Follows inSubpath (arguments.map .number ++ .operator op :: rest)
  | draw {rest : List (Token Type2Op N)} (op : Type2Op) (arguments : List N)
      (draws : op.declaresStems = false ∧ op.takesMask = false ∧ op.startsSubpath = false)
      (count : op.Accepts arguments.length) (follows : Follows true rest) :
      Follows true (arguments.map .number ++ .operator op :: rest)
  | ended {inSubpath : Bool} : Follows inSubpath [.operator .endchar]

def Grammatical (tokens : List (Token Type2Op N)) : Prop :=
  ∃ (width? : Option N) (body : List (Token Type2Op N)),
    tokens = width?.toList.map .number ++ body ∧ Follows false body

theorem exists_chunks {α : Type} {size : Nat} {write : α → List N}
    (reads : ∀ chunk : List N, chunk.length = size → ∃ item, write item = chunk)
    (arguments : List N) (whole : arguments.length % size = 0) :
    ∃ items : List α, items.flatMap write = arguments := by
  have counted : arguments.length = size * (arguments.length / size) :=
    (Nat.mul_div_cancel' (Nat.dvd_of_mod_eq_zero whole)).symm
  generalize arguments.length / size = count at counted
  induction count generalizing arguments with
  | zero => exact ⟨[], (List.eq_nil_of_length_eq_zero counted).symm⟩
  | succ count ih =>
      rw [Nat.mul_succ] at counted
      have first : (arguments.take size).length = size := by
        rw [List.length_take]
        omega
      have rest : (arguments.drop size).length = size * count := by
        rw [List.length_drop]
        omega
      obtain ⟨item, written⟩ := reads _ first
      obtain ⟨items, others⟩ := ih (arguments.drop size) (rest ▸ Nat.mul_mod_right size count) rest
      refine ⟨item :: items, ?_⟩
      rw [List.flatMap_cons, written, others, List.take_append_drop]

theorem exists_point (chunk : List N) (two : chunk.length = 2) :
    ∃ point : Point N, point.coordinates = chunk :=
  match chunk, two with
  | [x, y], _ => ⟨⟨x, y⟩, rfl⟩

theorem exists_bend (chunk : List N) (six : chunk.length = 6) :
    ∃ bend : Bend N, bend.arguments = chunk :=
  match chunk, six with
  | [dx₁, dy₁, dx₂, dy₂, dx₃, dy₃], _ => ⟨⟨⟨dx₁, dy₁⟩, ⟨dx₂, dy₂⟩, ⟨dx₃, dy₃⟩⟩, rfl⟩

theorem exists_quarter (chunk : List N) (four : chunk.length = 4) :
    ∃ quarter : Quarter N, quarter.arguments = chunk :=
  match chunk, four with
  | [start, dx, dy, finish], _ => ⟨⟨start, ⟨dx, dy⟩, finish⟩, rfl⟩

theorem exists_pair (chunk : List N) (two : chunk.length = 2) :
    ∃ pair : N × N, [pair.1, pair.2] = chunk :=
  match chunk, two with
  | [distance, width], _ => ⟨(distance, width), rfl⟩

theorem exists_flex (arguments : List N) (count : arguments.length = 13) :
    ∃ figure : Figure N, figure.op = .flex ∧ figure.arguments = arguments :=
  match arguments, count with
  | [dx₁, dy₁, dx₂, dy₂, dx₃, dy₃, dx₄, dy₄, dx₅, dy₅, dx₆, dy₆, depth], _ =>
      ⟨.flex ⟨⟨dx₁, dy₁⟩, ⟨dx₂, dy₂⟩, ⟨dx₃, dy₃⟩⟩ ⟨⟨dx₄, dy₄⟩, ⟨dx₅, dy₅⟩, ⟨dx₆, dy₆⟩⟩ depth, rfl, rfl⟩

theorem exists_hflex (arguments : List N) (count : arguments.length = 7) :
    ∃ figure : Figure N, figure.op = .hflex ∧ figure.arguments = arguments :=
  match arguments, count with
  | [dx₁, dx₂, dy₂, dx₃, dx₄, dx₅, dx₆], _ => ⟨.hflex dx₁ ⟨dx₂, dy₂⟩ dx₃ dx₄ dx₅ dx₆, rfl, rfl⟩

theorem exists_hflex1 (arguments : List N) (count : arguments.length = 9) :
    ∃ figure : Figure N, figure.op = .hflex1 ∧ figure.arguments = arguments :=
  match arguments, count with
  | [dx₁, dy₁, dx₂, dy₂, dx₃, dx₄, dx₅, dy₅, dx₆], _ =>
      ⟨.hflex1 ⟨dx₁, dy₁⟩ ⟨dx₂, dy₂⟩ dx₃ dx₄ ⟨dx₅, dy₅⟩ dx₆, rfl, rfl⟩

theorem exists_flex1 (arguments : List N) (count : arguments.length = 11) :
    ∃ figure : Figure N, figure.op = .flex1 ∧ figure.arguments = arguments :=
  match arguments, count with
  | [dx₁, dy₁, dx₂, dy₂, dx₃, dy₃, dx₄, dy₄, dx₅, dy₅, last], _ =>
      ⟨.flex1 ⟨dx₁, dy₁⟩ ⟨dx₂, dy₂⟩ ⟨dx₃, dy₃⟩ ⟨dx₄, dy₄⟩ ⟨dx₅, dy₅⟩ last, rfl, rfl⟩

theorem exists_parallel (horizontal : Bool) (arguments : List N)
    (count : arguments.length % 4 = 0 ∨ arguments.length % 4 = 1) :
    ∃ figure : Figure N, figure.op = (if horizontal then .hhcurveto else .vvcurveto) ∧
      figure.arguments = arguments := by
  rcases count with even | odd
  · obtain ⟨quarters, written⟩ := exists_chunks exists_quarter arguments even
    exact ⟨.parallelCurves horizontal none quarters, rfl, written⟩
  · cases arguments with
    | nil => cases odd
    | cons cross rest =>
        have whole : rest.length % 4 = 0 := by
          rw [List.length_cons] at odd
          omega
        obtain ⟨quarters, written⟩ := exists_chunks exists_quarter rest whole
        exact ⟨.parallelCurves horizontal (some cross) quarters, rfl, congrArg (cross :: ·) written⟩

theorem exists_alternating (horizontal : Bool) (arguments : List N)
    (count : arguments.length % 4 = 0 ∨ arguments.length % 4 = 1) :
    ∃ figure : Figure N, figure.op = (if horizontal then .hvcurveto else .vhcurveto) ∧
      figure.arguments = arguments := by
  rcases count with even | odd
  · obtain ⟨quarters, written⟩ := exists_chunks exists_quarter arguments even
    exact ⟨.alternatingCurves horizontal quarters none, rfl, (List.append_nil _).trans written⟩
  · have some_left : arguments ≠ [] := by
      rintro rfl
      cases odd
    have whole : arguments.dropLast.length % 4 = 0 := by
      rw [List.length_dropLast]
      omega
    obtain ⟨quarters, written⟩ := exists_chunks exists_quarter _ whole
    refine ⟨.alternatingCurves horizontal quarters (some (arguments.getLast some_left)), rfl, ?_⟩
    rw [Figure.arguments, written, Option.toList_some, List.dropLast_concat_getLast]

theorem exists_curves_then_line (arguments : List N) (count : arguments.length % 6 = 2) :
    ∃ figure : Figure N, figure.op = .rcurveline ∧ figure.arguments = arguments := by
  have whole : (arguments.take (arguments.length - 2)).length % 6 = 0 := by
    rw [List.length_take]
    omega
  have two : (arguments.drop (arguments.length - 2)).length = 2 := by
    rw [List.length_drop]
    omega
  obtain ⟨bends, curves⟩ := exists_chunks exists_bend _ whole
  obtain ⟨delta, line⟩ := exists_point _ two
  refine ⟨.curvesThenLine bends delta, rfl, ?_⟩
  rw [Figure.arguments, curves, line, List.take_append_drop]

theorem exists_lines_then_curve (arguments : List N)
    (count : 6 ≤ arguments.length ∧ arguments.length % 2 = 0) :
    ∃ figure : Figure N, figure.op = .rlinecurve ∧ figure.arguments = arguments := by
  have whole : (arguments.take (arguments.length - 6)).length % 2 = 0 := by
    rw [List.length_take]
    omega
  have six : (arguments.drop (arguments.length - 6)).length = 6 := by
    rw [List.length_drop]
    omega
  obtain ⟨deltas, lines⟩ := exists_chunks exists_point _ whole
  obtain ⟨bend, curve⟩ := exists_bend _ six
  refine ⟨.linesThenCurve deltas bend, rfl, ?_⟩
  rw [Figure.arguments, lines, curve, List.take_append_drop]

theorem exists_figure (op : Type2Op) (arguments : List N)
    (draws : op.declaresStems = false ∧ op.takesMask = false ∧ op.startsSubpath = false)
    (count : op.Accepts arguments.length) :
    ∃ figure : Figure N, figure.op = op ∧ figure.arguments = arguments := by
  cases op with
  | rlineto =>
      obtain ⟨deltas, written⟩ := exists_chunks exists_point arguments count
      exact ⟨.lines deltas, rfl, written⟩
  | hlineto => exact ⟨.alternatingLines true arguments, rfl, rfl⟩
  | vlineto => exact ⟨.alternatingLines false arguments, rfl, rfl⟩
  | rrcurveto =>
      obtain ⟨bends, written⟩ := exists_chunks exists_bend arguments count
      exact ⟨.curves bends, rfl, written⟩
  | hhcurveto => exact exists_parallel true arguments count
  | vvcurveto => exact exists_parallel false arguments count
  | hvcurveto => exact exists_alternating true arguments count
  | vhcurveto => exact exists_alternating false arguments count
  | rcurveline => exact exists_curves_then_line arguments count
  | rlinecurve => exact exists_lines_then_curve arguments count
  | flex => exact exists_flex arguments count
  | hflex => exact exists_hflex arguments count
  | hflex1 => exact exists_hflex1 arguments count
  | flex1 => exact exists_flex1 arguments count
  | hstem | vstem | hstemhm | vstemhm => cases draws.1
  | hintmask | cntrmask => cases draws.2.1
  | rmoveto | hmoveto | vmoveto => cases draws.2.2
  | _ => cases count

theorem exists_pairs (arguments : List N) (count : arguments.length % 2 = 0) :
    ∃ pairs : List (N × N),
      (pairs.flatMap fun (distance, width) => [distance, width]) = arguments :=
  exists_chunks exists_pair arguments count

theorem exists_stems (op : Type2Op) (arguments : List N) (declares : op.declaresStems = true)
    (count : op.Accepts arguments.length) :
    ∃ vertical replaced pairs, (Hint.stems vertical replaced pairs : Hint N).op = op ∧
      (Hint.stems vertical replaced pairs).arguments = arguments := by
  have even : arguments.length % 2 = 0 := by
    cases op with
    | hstem | vstem | hstemhm | vstemhm => exact count
    | _ => cases declares
  obtain ⟨pairs, written⟩ := exists_pairs arguments even
  cases op with
  | hstem => exact ⟨false, false, pairs, rfl, written⟩
  | vstem => exact ⟨true, false, pairs, rfl, written⟩
  | hstemhm => exact ⟨false, true, pairs, rfl, written⟩
  | vstemhm => exact ⟨true, true, pairs, rfl, written⟩
  | _ => cases declares

theorem exists_mask (op : Type2Op) (arguments : List N) (bytes : Bytes) (takes : op.takesMask = true)
    (count : op.Accepts arguments.length) :
    ∃ counters pairs, (Hint.mask counters pairs bytes : Hint N).op = op ∧
      (Hint.mask counters pairs bytes).arguments = arguments := by
  have even : arguments.length % 2 = 0 := by
    cases op with
    | hintmask | cntrmask => exact count
    | _ => cases takes
  obtain ⟨pairs, written⟩ := exists_pairs arguments even
  cases op with
  | hintmask => exact ⟨false, pairs, rfl, written⟩
  | cntrmask => exact ⟨true, pairs, rfl, written⟩
  | _ => cases takes

theorem exists_move (op : Type2Op) (arguments : List N) (starts : op.startsSubpath = true)
    (count : op.Accepts arguments.length) :
    ∃ move : Move N, move.op = op ∧ move.arguments = arguments := by
  have single (one : arguments.length = 1) : ∃ delta, [delta] = arguments := by
    obtain ⟨delta, written⟩ := List.length_eq_one_iff.mp one
    exact ⟨delta, written.symm⟩
  cases op with
  | rmoveto =>
      obtain ⟨delta, written⟩ := exists_point arguments count
      exact ⟨.both delta, rfl, written⟩
  | hmoveto =>
      obtain ⟨delta, written⟩ := single count
      exact ⟨.along true delta, rfl, written⟩
  | vmoveto =>
      obtain ⟨delta, written⟩ := single count
      exact ⟨.along false delta, rfl, written⟩
  | _ => cases starts

theorem exists_items {inSubpath : Bool} {tokens : List (Token Type2Op N)}
    (follows : Follows inSubpath tokens) :
    ∃ items : List (Item N), Item.Drawable inSubpath items ∧
      items.flatMap Item.tokens ++ [.operator .endchar] = tokens := by
  induction follows with
  | stems op arguments declares count _ ih =>
      obtain ⟨items, drawable, written⟩ := ih
      obtain ⟨vertical, replaced, pairs, sameOp, same⟩ := exists_stems op arguments declares count
      refine ⟨.declares (.stems vertical replaced pairs) :: items, drawable, ?_⟩
      simp [Item.tokens, Item.command, Item.maskTokens, Command.tokens, sameOp, same, ← written]
  | mask op arguments bytes takes count _ ih =>
      obtain ⟨items, drawable, written⟩ := ih
      obtain ⟨counters, pairs, sameOp, same⟩ := exists_mask op arguments bytes takes count
      refine ⟨.declares (.mask counters pairs bytes) :: items, drawable, ?_⟩
      simp [Item.tokens, Item.command, Item.maskTokens, Command.tokens, sameOp, same, ← written]
  | move op arguments starts count _ ih =>
      obtain ⟨items, drawable, written⟩ := ih
      obtain ⟨move, sameOp, same⟩ := exists_move op arguments starts count
      refine ⟨.moves move :: items, drawable, ?_⟩
      simp [Item.tokens, Item.command, Item.maskTokens, Command.tokens, sameOp, same, ← written]
  | draw op arguments draws count _ ih =>
      obtain ⟨items, drawable, written⟩ := ih
      obtain ⟨figure, sameOp, same⟩ := exists_figure op arguments draws count
      refine ⟨.draws figure :: items, ⟨rfl, drawable⟩, ?_⟩
      simp [Item.tokens, Item.command, Item.maskTokens, Command.tokens, sameOp, same, ← written]
  | ended => exact ⟨[], trivial, rfl⟩

theorem exists_program {tokens : List (Token Type2Op N)} (grammatical : Grammatical tokens) :
    ∃ program : Program N, program.tokens = tokens := by
  obtain ⟨width?, body, rfl, follows⟩ := grammatical
  obtain ⟨items, drawable, rfl⟩ := exists_items follows
  exact ⟨⟨width?, items, drawable⟩, List.append_assoc _ _ _⟩

end Type2

end CompactFont
