/-
Text that is read into a buffer line by line.

A line that is longer than the buffer is taken in pieces that fill it, and what is left of it
in front of its end is the last piece, also when nothing is left.  The text behind the last
end of a line is taken only as far as it fills the buffer.
-/

import Mathlib.Data.List.Basic
import Mathlib.Data.List.TakeWhile

set_option autoImplicit false

namespace TextPieces

variable {α : Type}

/-! ### Pieces of a line -/

/-- The pieces that fill the buffer -/
def fullPieces (size : Nat) (line : List α) : List (List α) :=
  (List.range (line.length / size)).map (fun place => (line.drop (size * place)).take size)

/-- What is left behind the full pieces -/
def lastPiece (size : Nat) (line : List α) : List α := line.drop (size * (line.length / size))

def pieces (size : Nat) (line : List α) : List (List α) :=
  fullPieces size line ++ [lastPiece size line]

variable {size : Nat} {piece line rest : List α}

theorem fullPieces_short (short : line.length < size) : fullPieces size line = [] := by
  unfold fullPieces
  rw [Nat.div_eq_of_lt short]
  rfl

theorem lastPiece_short (short : line.length < size) : lastPiece size line = line := by
  unfold lastPiece
  rw [Nat.div_eq_of_lt short]
  rfl

theorem pieces_short (short : line.length < size) : pieces size line = [line] := by
  unfold pieces
  rw [fullPieces_short short, lastPiece_short short]
  rfl

theorem append_length_div (positive : 0 < size) (full : piece.length = size) :
    (piece ++ rest).length / size = rest.length / size + 1 := by
  rw [List.length_append, full, Nat.add_comm, Nat.add_div_right _ positive]

/-- A full buffer is the first piece. -/
theorem fullPieces_append (positive : 0 < size) (full : piece.length = size) :
    fullPieces size (piece ++ rest) = piece :: fullPieces size rest := by
  unfold fullPieces
  rw [append_length_div positive full, List.range_succ_eq_map, List.map_cons, List.map_map]
  congr 1
  · rw [Nat.mul_zero, List.drop_zero, List.take_left' full]
  · apply List.map_congr_left
    intro place _
    change ((piece ++ rest).drop (size * (place + 1))).take size = _
    rw [Nat.mul_succ, Nat.add_comm, ← List.drop_drop, List.drop_left' full]

theorem lastPiece_append (positive : 0 < size) (full : piece.length = size) :
    lastPiece size (piece ++ rest) = lastPiece size rest := by
  unfold lastPiece
  rw [append_length_div positive full, Nat.mul_succ, Nat.add_comm, ← List.drop_drop,
    List.drop_left' full]

theorem pieces_append (positive : 0 < size) (full : piece.length = size) :
    pieces size (piece ++ rest) = piece :: pieces size rest := by
  unfold pieces
  rw [fullPieces_append positive full, lastPiece_append positive full]
  rfl

/-- A line is shorter than the buffer, or it starts with a piece that fills it. -/
theorem short_or_full (size : Nat) (line : List α) :
    line.length < size ∨ ∃ piece rest, line = piece ++ rest ∧ piece.length = size := by
  by_cases short : line.length < size
  · exact Or.inl short
  · right
    refine ⟨line.take size, line.drop size, (List.take_append_drop size line).symm, ?_⟩
    rw [List.length_take]
    omega

/-- The pieces of a line, one behind the other, are the line. -/
theorem flatten_pieces (positive : 0 < size) (line : List α) :
    (pieces size line).flatten = line := by
  induction length : line.length using Nat.strong_induction_on generalizing line with
  | h n inductionHypothesis =>
      rcases short_or_full size line with short | ⟨piece, rest, rfl, full⟩
      · rw [pieces_short short]
        simp
      · rw [pieces_append positive full, List.flatten_cons]
        rw [List.length_append] at length
        rw [inductionHypothesis rest.length (by omega) rest rfl]

theorem flatten_fullPieces (positive : 0 < size) (line : List α) :
    (fullPieces size line).flatten ++ lastPiece size line = line := by
  have whole := flatten_pieces positive line
  unfold pieces at whole
  rw [List.flatten_append, List.flatten_singleton] at whole
  exact whole

theorem lastPiece_length (positive : 0 < size) (line : List α) :
    (lastPiece size line).length < size := by
  unfold lastPiece
  have rest := Nat.mod_lt line.length positive
  have whole := Nat.div_add_mod line.length size
  rw [List.length_drop]
  omega

theorem pieces_fit (positive : 0 < size) {line piece : List α} (member : piece ∈ pieces size line) :
    piece.length ≤ size := by
  unfold pieces at member
  rcases List.mem_append.mp member with full | last
  · obtain ⟨place, _, rfl⟩ := List.mem_map.mp full
    exact List.length_take_le _ _
  · rw [List.mem_singleton.mp last]
    exact Nat.le_of_lt (lastPiece_length positive line)

/-! ### Lines of a text -/

variable [DecidableEq α]

/-- The lines of a text and what stands behind the last of their ends -/
def splitLines (newline : α) : List α → List (List α) × List α
  | [] => ([], [])
  | char :: text =>
      let (lines, rest) := splitLines newline text
      if char = newline then
        ([] :: lines, rest)
      else
        match lines with
        | [] => ([], char :: rest)
        | line :: lines => ((char :: line) :: lines, rest)

/-- The pieces in which a text is read -/
def textPieces (size : Nat) (newline : α) (text : List α) : List (List α) :=
  let (lines, rest) := splitLines newline text
  lines.flatMap (pieces size) ++ fullPieces size rest

variable {newline : α} {text : List α}

/-- Characters in front of a text belong to its first line, or to the rest when it has no
line. -/
theorem splitLines_append (text : List α) (noNewline : newline ∉ piece) :
    (∃ rest, splitLines newline text = ([], rest) ∧
        splitLines newline (piece ++ text) = ([], piece ++ rest)) ∨
      ∃ line lines rest, splitLines newline text = (line :: lines, rest) ∧
        splitLines newline (piece ++ text) = ((piece ++ line) :: lines, rest) := by
  induction piece with
  | nil =>
      cases split : splitLines newline text with
      | mk lines rest =>
          cases lines with
          | nil => exact Or.inl ⟨rest, rfl, split⟩
          | cons line lines => exact Or.inr ⟨line, lines, rest, rfl, split⟩
  | cons char piece inductionHypothesis =>
      rw [List.mem_cons, not_or] at noNewline
      rw [List.cons_append, splitLines]
      rcases inductionHypothesis noNewline.2 with
        ⟨rest, split, more⟩ | ⟨line, lines, rest, split, more⟩
      · left
        refine ⟨rest, split, ?_⟩
        simp only [more, if_neg (Ne.symm noNewline.1), List.cons_append]
      · right
        refine ⟨line, lines, rest, split, ?_⟩
        simp only [more, if_neg (Ne.symm noNewline.1), List.cons_append]

theorem splitLines_newline (text : List α) :
    splitLines newline (newline :: text) =
      ([] :: (splitLines newline text).1, (splitLines newline text).2) := by
  rw [splitLines]
  simp only [if_pos]

/-- A full buffer is the first piece of the text. -/
theorem textPieces_full (positive : 0 < size) (noNewline : newline ∉ piece)
    (full : piece.length = size) :
    textPieces size newline (piece ++ text) = piece :: textPieces size newline text := by
  unfold textPieces
  rcases splitLines_append text noNewline with
    ⟨rest, split, more⟩ | ⟨line, lines, rest, split, more⟩
  · simp only [split, more, List.flatMap_nil, List.nil_append]
    exact fullPieces_append positive full
  · simp only [split, more, List.flatMap_cons, pieces_append positive full, List.cons_append]

/-- A line in front of its end is a piece when it does not fill the buffer. -/
theorem textPieces_line (noNewline : newline ∉ line) (short : line.length < size) :
    textPieces size newline (line ++ newline :: text) = line :: textPieces size newline text := by
  unfold textPieces
  have ended := @splitLines_newline _ _ newline text
  rcases splitLines_append (newline :: text) noNewline with
    ⟨rest, split, _⟩ | ⟨first, lines, rest, split, more⟩
  · rw [ended] at split
    cases split
  · rw [ended, Prod.mk.injEq, List.cons.injEq] at split
    obtain ⟨⟨rfl, rfl⟩, rfl⟩ := split
    simp only [more, List.append_nil, List.flatMap_cons, pieces_short short, List.cons_append,
      List.nil_append]

/-- What does not fill the buffer and has no end is no piece. -/
theorem textPieces_rest (noNewline : newline ∉ rest) (short : rest.length < size) :
    textPieces size newline rest = [] := by
  unfold textPieces
  rcases splitLines_append [] noNewline with
    ⟨empty, split, more⟩ | ⟨first, lines, empty, split, _⟩
  · rw [splitLines, Prod.mk.injEq] at split
    obtain ⟨_, rfl⟩ := split
    rw [List.append_nil] at more
    simp only [more, List.append_nil, List.flatMap_nil, fullPieces_short short]
  · cases split

/-! ### What the pieces hold -/

/-- The lines and the rest hold every character of the text but the newlines. -/
theorem splitLines_flatten (text : List α) :
    (splitLines newline text).1.flatten ++ (splitLines newline text).2 =
      text.filter (fun char => !decide (char = newline)) := by
  induction text with
  | nil => rfl
  | cons char text inductionHypothesis =>
      rw [splitLines, List.filter_cons, ← inductionHypothesis]
      cases split : splitLines newline text with
      | mk lines rest =>
          by_cases ends : char = newline
          · simp [ends]
          · cases lines with
            | nil => simp [ends]
            | cons line lines => simp [ends]

/-- A text without lines is its own rest. -/
theorem splitLines_none (text : List α) (none : (splitLines newline text).1 = []) :
    (splitLines newline text).2 = text := by
  induction text with
  | nil => rfl
  | cons char text inductionHypothesis =>
      rw [splitLines] at none ⊢
      cases split : splitLines newline text with
      | mk lines rest =>
          rw [split] at none inductionHypothesis
          by_cases ends : char = newline
          · simp [ends] at none
          · cases lines with
            | nil =>
                simp only [if_neg ends]
                exact congrArg _ (inductionHypothesis rfl)
            | cons line lines => simp [ends] at none

/-- What stands behind the last newline has none and ends the text. -/
theorem splitLines_rest (text : List α) :
    newline ∉ (splitLines newline text).2 ∧ (splitLines newline text).2 <:+ text := by
  induction text with
  | nil => exact ⟨List.not_mem_nil, List.suffix_rfl⟩
  | cons char text inductionHypothesis =>
      rw [splitLines]
      obtain ⟨noNewline, atEnd⟩ := inductionHypothesis
      cases split : splitLines newline text with
      | mk lines rest =>
          rw [split] at noNewline atEnd
          by_cases ends : char = newline
          · simp only [if_pos ends]
            exact ⟨noNewline, List.suffix_cons_iff.mpr (Or.inr atEnd)⟩
          · cases lines with
            | nil =>
                simp only [if_neg ends]
                constructor
                · rw [List.mem_cons, not_or]
                  exact ⟨Ne.symm ends, noNewline⟩
                · have none : (splitLines newline text).1 = [] := by rw [split]
                  have all : rest = text := by
                    rw [← splitLines_none text none, split]
                  subst all
                  exact List.suffix_rfl
            | cons line lines =>
                simp only [if_neg ends]
                exact ⟨noNewline, List.suffix_cons_iff.mpr (Or.inr atEnd)⟩

theorem textPieces_fit (positive : 0 < size) {text piece : List α}
    (member : piece ∈ textPieces size newline text) : piece.length ≤ size := by
  unfold textPieces at member
  rcases List.mem_append.mp member with inLine | inRest
  · obtain ⟨line, _, isPiece⟩ := List.mem_flatMap.mp inLine
    exact pieces_fit positive isPiece
  · exact pieces_fit positive (List.mem_append_left _ inRest)

/-- The pieces, and what was not taken behind them, hold every character of the text but the
newlines. -/
theorem textPieces_flatten (positive : 0 < size) (text : List α) :
    (textPieces size newline text).flatten ++ lastPiece size (splitLines newline text).2 =
      text.filter (fun char => !decide (char = newline)) := by
  have lines : ((splitLines newline text).1.flatMap (pieces size)).flatten =
      (splitLines newline text).1.flatten := by
    induction (splitLines newline text).1 with
    | nil => rfl
    | cons line lines inductionHypothesis =>
        rw [List.flatMap_cons, List.flatten_append, inductionHypothesis,
          flatten_pieces positive, List.flatten_cons]
  rw [← splitLines_flatten]
  unfold textPieces
  rw [List.flatten_append, List.append_assoc, flatten_fullPieces positive, lines]

end TextPieces
