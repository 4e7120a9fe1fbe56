import SchemaProjection.Proofs.Grammar.Positions

/-!
# The line table

The lines of a text are the pieces that its line feeds split it into, each but the last without the
carriage return in front of its line feed (`Source.lineTexts`). The line table cuts just these out
of the text (`Source.cuts_lineTable`): an entry begins and ends between two characters, and what is
between is the line.
-/

namespace SchemaProjection

namespace Source

variable {source : Source} {earlier line rest : List Char} {previous : Char} {place start : Nat}

/-! ### Lines without a table -/

/-- A line without the carriage return at its end. -/
def dropReturn (line : List Char) : List Char :=
  if line.getLast? = some '\r' then line.dropLast else line

/-- The pieces between line feeds as lines. Behind the last piece there is no line feed, so it keeps
its carriage return. -/
def trimmed : List (List Char) → List (List Char)
  | [] => []
  | [last] => [last]
  | piece :: next :: rest => dropReturn piece :: trimmed (next :: rest)

/-- The lines of a source, by its text alone. -/
def lineTexts (source : Source) : List (List Char) := trimmed (source.text.toList.splitOn '\n')

theorem trimmed_cons (piece : List Char) {rest : List (List Char)} (h : rest ≠ []) :
    trimmed (piece :: rest) = dropReturn piece :: trimmed rest := by
  cases rest with
  | nil => exact absurd rfl h
  | cons next rest => rfl

theorem length_trimmed (pieces : List (List Char)) : (trimmed pieces).length = pieces.length := by
  induction pieces with
  | nil => rfl
  | cons piece rest ih =>
    cases rest with
    | nil => rfl
    | cons next rest => rw [trimmed, List.length_cons, ih, List.length_cons (a := piece)]

theorem trimmed_getElem? (pieces : List (List Char)) (i : Nat) :
    (trimmed pieces)[i]? =
      pieces[i]?.map fun piece => if i + 1 < pieces.length then dropReturn piece else piece := by
  induction pieces generalizing i with
  | nil => rfl
  | cons piece rest ih =>
    cases rest with
    | nil => cases i <;> simp [trimmed]
    | cons next rest =>
      cases i with
      | zero => simp [trimmed]
      | succ i => simpa [trimmed] using ih i

theorem splitOn_lineFeed (rest : List Char) :
    ('\n' :: rest).splitOn '\n' = [] :: rest.splitOn '\n' := by
  rw [List.splitOn, List.splitOnP_cons_eq_if_modifyHead, if_pos (beq_self_eq_true _), List.splitOn]

theorem splitOn_cons {c : Char} (hc : c ≠ '\n') (rest : List Char) :
    (c :: rest).splitOn '\n' = (rest.splitOn '\n').modifyHead (c :: ·) := by
  rw [List.splitOn, List.splitOnP_cons_eq_if_modifyHead, if_neg (by simpa using hc), List.splitOn]

/-- A text has one piece more than it has line feeds. -/
theorem length_splitOn (text : List Char) :
    (text.splitOn '\n').length = text.count '\n' + 1 := by
  induction text with
  | nil => rfl
  | cons c text ih =>
    by_cases hc : c = '\n'
    · rw [hc, splitOn_lineFeed, List.length_cons, ih, List.count_cons_self]
    · rw [splitOn_cons hc, List.length_modifyHead, ih, List.count_cons_of_ne hc]

theorem modifyHead_nil_append (pieces : List (List Char)) :
    pieces.modifyHead ([] ++ ·) = pieces := congrFun List.modifyHead_id pieces

/-! ### Cutting -/

/-- **An entry of the line table that cuts out a line.** -/
def Cuts (source : Source) (entry : Nat × Nat) (line : List Char) : Prop :=
  ∃ before after, source.text.toList = before ++ line ++ after ∧
    entry = (Cursor.byteSize before, Cursor.byteSize before + Cursor.byteSize line)

namespace Cuts

variable {stop : Nat}

theorem le (h : source.Cuts (start, stop) line) : start ≤ stop := by
  obtain ⟨before, after, -, hentry⟩ := h
  cases hentry
  exact Nat.le_add_right _ _

theorem start_valid (h : source.Cuts (start, stop) line) :
    String.Pos.Raw.IsValid source.text ⟨start⟩ := by
  obtain ⟨before, after, htext, hentry⟩ := h
  cases hentry
  exact isValid_byteSize (htext.trans (List.append_assoc _ _ _))

theorem stop_valid (h : source.Cuts (start, stop) line) :
    String.Pos.Raw.IsValid source.text ⟨stop⟩ := by
  obtain ⟨before, after, htext, hentry⟩ := h
  cases hentry
  rw [← Cursor.byteSize_append]
  exact isValid_byteSize htext

theorem between_eq (h : source.Cuts (start, stop) line) :
    source.between start stop = String.ofList line := by
  obtain ⟨before, after, htext, hentry⟩ := h
  cases hentry
  exact Source.between_eq htext

end Cuts

/-! ### The table -/

/-- What is known of the last character that was read: it is no carriage return, or it ends the line
in progress. -/
def Last (earlier line : List Char) (previous : Char) (place : Nat) : Prop :=
  line = [] ∧ previous ≠ '\r' ∨
    ∃ front, line = front ++ [previous] ∧ place = Cursor.byteSize (earlier ++ front)

/-- Where a line ends in front of a line feed. -/
theorem Last.stop_eq (h : Last earlier line previous place) :
    (if previous = '\r' then place else Cursor.byteSize (earlier ++ line)) =
      Cursor.byteSize earlier + Cursor.byteSize (dropReturn line) := by
  rcases h with ⟨rfl, hprevious⟩ | ⟨front, rfl, rfl⟩
  · rw [if_neg hprevious, List.append_nil]
    rfl
  · rw [dropReturn, List.getLast?_concat, List.dropLast_concat]
    by_cases hreturn : previous = '\r'
    · rw [if_pos hreturn, if_pos (congrArg some hreturn), Cursor.byteSize_append]
    · rw [if_neg hreturn, if_neg fun h => hreturn (Option.some.inj h), Cursor.byteSize_append]

theorem exists_dropReturn (line : List Char) : ∃ ending, line = dropReturn line ++ ending := by
  rw [dropReturn]
  split_ifs with hreturn
  · exact ⟨['\r'], (List.dropLast_append_getLast? _ hreturn).symm⟩
  · exact ⟨[], (List.append_nil line).symm⟩

theorem eq_nil_of_byteSize (h : Cursor.byteSize line = 0) : line = [] := by
  cases line with
  | nil => rfl
  | cons c line =>
    have hpos := c.utf8Size_pos
    rw [Cursor.byteSize_cons] at h
    omega

/-- The rest of the table cuts out the line in progress and the lines behind it. `earlier` is the
text in front of the line in progress, which ends in a line feed. -/
theorem cuts_tableFrom (htext : source.text.toList = earlier ++ line ++ rest)
    (hearlier : earlier = [] ∨ ∃ front, earlier = front ++ ['\n'])
    (hlast : Last earlier line previous place) :
    List.Forall₂ source.Cuts
      (tableFrom previous place (Cursor.byteSize earlier) (Cursor.byteSize (earlier ++ line)) rest)
      (trimmed ((rest.splitOn '\n').modifyHead (line ++ ·))) := by
  induction rest generalizing earlier line previous place with
  | nil =>
    rw [List.splitOn_nil, List.modifyHead_cons, List.append_nil, trimmed, tableFrom,
      Cursor.byteSize_append]
    split_ifs with hline hempty
    · exact .cons ⟨earlier, [], htext, rfl⟩ .nil
    · -- nothing was read at all
      obtain rfl : line = [] := eq_nil_of_byteSize (by omega)
      obtain rfl : earlier = [] := eq_nil_of_byteSize (by omega)
      exact .cons ⟨[], [], htext, rfl⟩ .nil
    · -- the text ends in a line feed, and the line behind is cut out in front of it
      obtain rfl : line = [] := eq_nil_of_byteSize (by omega)
      rcases hearlier with rfl | ⟨front, rfl⟩
      · exact absurd rfl hempty
      · refine .cons ⟨front, ['\n'], by simpa using htext, ?_⟩ .nil
        have hfeed : Cursor.byteSize ['\n'] = 1 := rfl
        simp [hfeed]
  | cons c rest ih =>
    rw [tableFrom]
    by_cases hfeed : c = '\n'
    · subst hfeed
      have hsize : Cursor.byteSize (earlier ++ line ++ ['\n']) =
          Cursor.byteSize (earlier ++ line) + 1 := Cursor.byteSize_append _ _
      obtain ⟨ending, hending⟩ := exists_dropReturn line
      rw [if_pos rfl, splitOn_lineFeed, List.modifyHead_cons, List.append_nil,
        trimmed_cons _ (List.splitOn_ne_nil _ _), hlast.stop_eq]
      refine .cons ⟨earlier, ending ++ '\n' :: rest, ?_, rfl⟩ ?_
      · rw [htext]
        conv_lhs => rw [hending]
        simp only [List.append_assoc]
      · have htext' : source.text.toList = earlier ++ line ++ ['\n'] ++ [] ++ rest := by
          simp [htext]
        have hlast' : Last (earlier ++ line ++ ['\n']) [] '\n'
            (Cursor.byteSize (earlier ++ line)) := .inl ⟨rfl, by decide⟩
        have hbehind := ih htext' (.inr ⟨_, rfl⟩) hlast'
        rwa [List.append_nil, hsize, modifyHead_nil_append] at hbehind
    · have hsize : Cursor.byteSize (earlier ++ (line ++ [c])) =
          Cursor.byteSize (earlier ++ line) + c.utf8Size := by
        rw [← List.append_assoc, Cursor.byteSize_append _ [c], Cursor.byteSize_cons]
        rfl
      have hpieces : (rest.splitOn '\n').modifyHead ((line ++ ·) ∘ (c :: ·)) =
          (rest.splitOn '\n').modifyHead (line ++ [c] ++ ·) := by
        congr 1
        funext piece
        exact List.append_cons line c piece
      rw [if_neg hfeed, splitOn_cons hfeed, List.modifyHead_modifyHead, hpieces, ← hsize]
      exact ih (by simp [htext]) hearlier (.inr ⟨line, rfl, rfl⟩)

/-- **The line table cuts out the lines.** -/
theorem cuts_lineTable (source : Source) :
    List.Forall₂ source.Cuts source.lineTable source.lineTexts := by
  have hlast : Last [] [] ' ' 0 := .inl ⟨rfl, by decide⟩
  have htext : source.text.toList = [] ++ [] ++ source.text.toList := rfl
  have hcuts := cuts_tableFrom htext (.inl rfl) hlast
  rwa [modifyHead_nil_append] at hcuts

/-- There is one line more than there are line feeds. -/
theorem length_lineTable (source : Source) :
    source.lineTable.length = source.text.toList.count '\n' + 1 := by
  rw [source.cuts_lineTable.length_eq, lineTexts, length_trimmed, length_splitOn]

end Source

end SchemaProjection
