import Mathlib.Data.List.DropRight
import Mathlib.Data.String.Basic
import SchemaProjection.Grammar.Lexing

/-!
# Gaps between tokens

What may stand between two tokens is a **filler**: any sequence of spaces, tabs, line ends and
comments (`Filler`). Every filler is skipped, whatever stands behind it (`Filler.skips`), and
nothing else is: what is skipped in front of a token is a filler, and in front of the end of the
text there may also be a comment that no line end closes (`bounded_of_skip`).

A cursor that stands **behind** a text counts its bytes and lines, and its columns as far as the
line is plain (`Behind`). Tabs and the characters of comments are counted in their own way, and a
comment up to the line end is not counted at all; so it is only the end of the line that puts the
column right again.
-/

namespace SchemaProjection.Cursor

variable {before text rest gap piece : List Char} {offset line col : Nat} {cursor : Cursor}

/-! ### Sizes -/

/-- The size of a text, counted from its end. -/
theorem byteSize_eq (text : List Char) : byteSize text = String.utf8Len text := by
  have hfold : ∀ (text : List Char) (size : Nat),
      text.foldl (fun size c => size + c.utf8Size) size = size + String.utf8Len text := by
    intro text
    induction text with
    | nil => exact fun _ => rfl
    | cons c text ih =>
      intro size
      rw [List.foldl_cons, ih, String.utf8Len_cons]
      omega
  rw [byteSize, hfold, Nat.zero_add]

@[simp] theorem byteSize_nil : byteSize [] = 0 := rfl

@[simp] theorem byteSize_append (text rest : List Char) :
    byteSize (text ++ rest) = byteSize text + byteSize rest := by
  simp only [byteSize_eq, String.utf8Len_append]

@[simp] theorem byteSize_cons (c : Char) (text : List Char) :
    byteSize (c :: text) = c.utf8Size + byteSize text := by
  simp only [byteSize_eq, String.utf8Len_cons, Nat.add_comm]

/-! ### Comments up to the line end -/

/-- Such a comment is skipped character by character, and is not counted in columns. -/
theorem skipFrom_lineComment (hline : '\n' ∉ text) (hnul : '\x00' ∉ text)
    (offset line col : Nat) (rest : List Char) :
    skipFrom offset line col .lineComment (text ++ rest) =
      skipFrom (offset + byteSize text) line col .lineComment rest := by
  induction text generalizing offset with
  | nil => rfl
  | cons c text ih =>
    obtain ⟨hc, hline⟩ := not_or.mp (List.mem_cons.not.mp hline)
    obtain ⟨hc', hnul⟩ := not_or.mp (List.mem_cons.not.mp hnul)
    rw [List.cons_append, skipFrom.eq_11 _ _ _ _ _ (Ne.symm hc) (Ne.symm hc'), ih hline hnul,
      byteSize_cons, Nat.add_assoc]

/-! ### Places -/

/-- The characters that take one byte and one column each. -/
def isPlain (c : Char) : Bool := c.toNat < 0x80 && c ≠ '\t'

/-- What stands behind the last line feed. -/
def lastLine (text : List Char) : List Char := text.rtakeWhile (· ≠ '\n')

theorem lastLine_append (h : '\n' ∉ text) :
    lastLine (before ++ text) = lastLine before ++ text := by
  have hkeep : ∀ c ∈ text.reverse, decide (c ≠ '\n') = true := fun c hc =>
    decide_eq_true fun hline => h (hline ▸ List.mem_reverse.mp hc)
  rw [lastLine, List.rtakeWhile, List.reverse_append, List.takeWhile_append_of_pos hkeep,
    List.reverse_append, List.reverse_reverse]
  rfl

theorem lastLine_lineFeed (text : List Char) : lastLine (text ++ ['\n']) = [] :=
  List.rtakeWhile_concat_neg _ _ _ (by decide)

theorem utf8Size_of_isPlain {c : Char} (h : isPlain c) : c.utf8Size = 1 := by
  rw [isPlain, Bool.and_eq_true, decide_eq_true_eq] at h
  exact Char.utf8Size_eq_one_iff.mpr (UInt32.le_iff_toNat_le.mpr (Nat.le_of_lt_succ h.1))

/-- **A cursor behind a text**, as far as bytes and lines are concerned. -/
structure Counted (before : List Char) (offset line : Nat) : Prop where
  offset_eq : offset = byteSize before
  line_eq : line = before.count '\n' + 1

/-- **A cursor behind a text.** The column is that of a plain line. -/
structure Behind (before : List Char) (offset line col : Nat) : Prop
    extends Counted before offset line where
  col_eq : (∀ c ∈ lastLine before, isPlain c) → col = byteSize (lastLine before) + 1

theorem behind_nil : Behind [] 0 1 1 := ⟨⟨rfl, rfl⟩, fun _ => rfl⟩

theorem Counted.append (h : Counted before offset line) (text : List Char) (htext : '\n' ∉ text) :
    Counted (before ++ text) (offset + byteSize text) line := by
  refine ⟨by rw [h.offset_eq, byteSize_append], ?_⟩
  rw [h.line_eq, List.count_append, List.count_eq_zero.mpr htext, Nat.add_zero]

/-- Text within a line. Only the plain characters are counted as they should be. -/
theorem Behind.append {col' : Nat} (h : Behind before offset line col) (text : List Char)
    (htext : '\n' ∉ text) (hcol : (∀ c ∈ text, isPlain c) → col' = col + byteSize text) :
    Behind (before ++ text) (offset + byteSize text) line col' := by
  refine ⟨h.toCounted.append text htext, fun hplain => ?_⟩
  rw [lastLine_append htext] at hplain ⊢
  obtain ⟨hbefore, hplain⟩ := List.forall_mem_append.mp hplain
  rw [hcol hplain, h.col_eq hbefore, byteSize_append]
  omega

/-- A line feed puts the column right, whatever has been counted. -/
theorem Counted.lineFeed (h : Counted before offset line) :
    Behind (before ++ ['\n']) (offset + 1) (line + 1) 1 := by
  refine ⟨⟨by rw [h.offset_eq, byteSize_append]; rfl, ?_⟩, fun _ => ?_⟩
  · rw [h.line_eq, List.count_append, List.count_singleton_self]
  · rw [lastLine_lineFeed, byteSize_nil]

/-! ### Fillers -/

/-- One thing that may stand between two tokens. -/
inductive Separator : List Char → Prop
  | space : Separator [' ']
  | tab : Separator ['\t']
  | lineFeed : Separator ['\n']
  | lineEnd : Separator ['\r', '\n']
  /-- A comment with the line feed that ends it. -/
  | lineComment {text : List Char} : '\n' ∉ text → '\x00' ∉ text →
    Separator ('/' :: '/' :: (text ++ ['\n']))
  /-- A comment up to the first mark that closes it. -/
  | blockComment {text : List Char} : ¬ ['*', '/'] <:+: text → '\x00' ∉ text →
    Separator ('/' :: '*' :: (text ++ ['*', '/']))

/-- **What may stand between two tokens.** -/
inductive Filler : List Char → Prop
  | nil : Filler []
  | cons {piece rest : List Char} : Separator piece → Filler rest → Filler (piece ++ rest)

/-- Text that is skipped, be the cursor where it may and whatever stands behind. -/
def Skips (piece : List Char) : Prop :=
  ∀ offset line col rest, ∃ offset' line' col',
    skipFrom offset line col .blank (piece ++ rest) = skipFrom offset' line' col' .blank rest ∧
      ∀ before, Behind before offset line col → Behind (before ++ piece) offset' line' col'

theorem Skips.append (h : Skips piece) (h' : Skips text) : Skips (piece ++ text) := by
  intro offset line col rest
  obtain ⟨offset', line', col', hpiece, hbehind⟩ := h offset line col (text ++ rest)
  obtain ⟨offset'', line'', col'', htext, hbehind'⟩ := h' offset' line' col' rest
  refine ⟨offset'', line'', col'', by rw [List.append_assoc, hpiece, htext], fun before h => ?_⟩
  rw [← List.append_assoc]
  exact hbehind' _ (hbehind _ h)

theorem skipFrom_blockComment {m n : Nat} (hopen : ¬ ['*', '/'] <:+: text) (hnul : '\x00' ∉ text)
    (offset line col : Nat) (rest : List Char) :
    ∃ offset' line' col',
      skipFrom offset line col (.blockComment m n) (text ++ '*' :: '/' :: rest) =
        skipFrom offset' line' col' .blank rest ∧
      ∀ before, Behind before offset line col →
        Behind (before ++ (text ++ ['*', '/'])) offset' line' col' := by
  induction text generalizing offset line col with
  | nil =>
    refine ⟨offset + 2, line, col + 2, rfl, fun before h => ?_⟩
    exact h.append ['*', '/'] (by decide) fun _ => rfl
  | cons c text ih =>
    obtain ⟨hc, hnul'⟩ := not_or.mp (List.mem_cons.not.mp hnul)
    -- a star is followed by a slash only where the comment is closed
    have hclosed : ∀ after, c = '*' → text ++ '*' :: '/' :: rest = '/' :: after → False := by
      rintro after rfl hafter
      cases text with
      | nil => cases hafter
      | cons d text =>
        cases hafter
        exact hopen ⟨[], text, rfl⟩
    have hopen' : ¬ ['*', '/'] <:+: text := fun h => hopen (List.infix_cons h)
    by_cases hline : c = '\n'
    · subst hline
      obtain ⟨offset', line', col', hskip, hbehind⟩ := ih hopen' hnul' (offset + 1) (line + 1) 1
      refine ⟨offset', line', col', hskip, fun before h => ?_⟩
      rw [List.cons_append, List.append_cons]
      exact hbehind _ h.toCounted.lineFeed
    · obtain ⟨offset', line', col', hskip, hbehind⟩ :=
        ih hopen' hnul' (offset + c.utf8Size) line (col + 1)
      refine ⟨offset', line', col', ?_, fun before h => ?_⟩
      · rw [List.cons_append, skipFrom.eq_16 _ _ _ _ _ _ _ hclosed (Ne.symm hc) hline, hskip]
      · have hstep : Behind (before ++ [c]) (offset + c.utf8Size) line (col + 1) := by
          have hsize : byteSize [c] = c.utf8Size := by simp
          rw [← hsize]
          refine h.append [c] (by simpa using Ne.symm hline) fun hplain => ?_
          rw [hsize, utf8Size_of_isPlain (hplain c List.mem_cons_self)]
        rw [List.cons_append, List.append_cons]
        exact hbehind _ hstep

theorem Separator.skips (h : Separator piece) : Skips piece := by
  intro offset line col rest
  cases h with
  | space =>
    exact ⟨offset + 1, line, col + 1, rfl, fun _ h =>
      h.append [' '] (by decide) fun _ => rfl⟩
  | tab =>
    -- a tab takes four columns, but then the line is not plain
    exact ⟨offset + 1, line, col + 4, rfl, fun _ h =>
      h.append ['\t'] (by decide) fun hplain => absurd (hplain '\t' (by simp)) (by decide)⟩
  | lineFeed => exact ⟨offset + 1, line + 1, 1, rfl, fun _ h => h.toCounted.lineFeed⟩
  | lineEnd =>
    refine ⟨offset + 2, line + 1, 1, rfl, fun before h => ?_⟩
    rw [List.append_cons]
    exact (h.toCounted.append ['\r'] (by decide)).lineFeed
  | @lineComment text hline hnul =>
    refine ⟨offset + 2 + byteSize text + 1, line + 1, 1, ?_, fun before h => ?_⟩
    · simp only [List.cons_append, List.append_assoc]
      rw [skipFrom.eq_6, skipFrom_lineComment hline hnul]
      rfl
    · have hmarks := (h.toCounted.append ['/', '/'] (by decide)).append text hline
      rw [List.append_cons, List.append_cons, ← List.append_assoc, List.append_assoc before]
      exact hmarks.lineFeed
  | @blockComment text hopen hnul =>
    obtain ⟨offset', line', col', hskip, hbehind⟩ :=
      skipFrom_blockComment (m := line) (n := col) hopen hnul (offset + 2) line (col + 2) rest
    refine ⟨offset', line', col', ?_, fun before h => ?_⟩
    · simp only [List.cons_append, List.append_assoc]
      exact hskip
    · have hmarks : Behind (before ++ ['/', '*']) (offset + 2) line (col + 2) :=
        h.append ['/', '*'] (by decide) fun _ => rfl
      simpa using hbehind _ hmarks

/-- **A filler is skipped.** -/
theorem Filler.skips (h : Filler gap) : Skips gap := by
  induction h with
  | nil => exact fun offset line col rest => ⟨offset, line, col, rfl, fun _ h => by simpa using h⟩
  | cons hpiece _ ih => exact hpiece.skips.append ih

/-! ### Where a gap ends -/

/-- A text that is empty or begins with a space. -/
def Spaced (text : List Char) : Prop := text = [] ∨ ∃ rest, text = ' ' :: rest

def blanks : List Char := [' ', '\t', '\n', '\r']

/-- Nothing is skipped in front of the text. -/
def Settled (text : List Char) : Prop :=
  ∀ offset line col, skipFrom offset line col .blank text = .ok ⟨text, offset, line, col⟩

/-- Only blanks are skipped, and comments, which do not begin with a slash before a space. -/
theorem settled_cons {c : Char} {rest : List Char} (hblank : c ∉ blanks)
    (hslash : c = '/' → Spaced rest) : Settled (c :: rest) := by
  simp only [blanks, List.mem_cons, not_or] at hblank
  obtain ⟨hspace, htab, hline, hreturn, -⟩ := hblank
  have hcomment : ∀ d after, d ≠ ' ' → c :: rest ≠ '/' :: d :: after := by
    rintro d after hd ⟨⟩
    rcases hslash rfl with h | ⟨_, h⟩ <;> cases h
    exact hd rfl
  -- the last equation applies, as none of those for blanks and comments does
  intro offset line col
  refine skipFrom.eq_8 _ _ _ _ ?_ ?_ ?_ ?_ ?_ ?_ ?_
  · rintro _ ⟨⟩
    exact hspace rfl
  · rintro _ ⟨⟩
    exact htab rfl
  · rintro _ ⟨⟩
    exact hline rfl
  · rintro _ ⟨⟩
    exact hreturn rfl
  · rintro _ ⟨⟩
    exact hreturn rfl
  · exact fun _ => hcomment '/' _ (by decide)
  · exact fun _ => hcomment '*' _ (by decide)

/-- A cursor in front of a filler is moved behind it. -/
theorem Filler.skip (hgap : Filler gap) (hrest : cursor.rest = gap ++ text) (htext : Settled text) :
    ∃ settled, cursor.skip = .ok settled ∧ settled.rest = text ∧
      ∀ before, Behind before cursor.offset cursor.line cursor.col →
        Behind (before ++ gap) settled.offset settled.line settled.col := by
  obtain ⟨offset', line', col', hskip, hbehind⟩ :=
    hgap.skips cursor.offset cursor.line cursor.col text
  exact ⟨⟨text, offset', line', col'⟩, by rw [Cursor.skip, hrest, hskip, htext], rfl, hbehind⟩

/-! ### What is skipped -/

/-- A text that is empty or begins with a NUL: its end has been reached. -/
def Ended (text : List Char) : Prop := text = [] ∨ ∃ rest, text = '\x00' :: rest

/-- **A gap and what stands behind it**: a filler that goes no further, or a filler with a comment
that only the end of the text ends. -/
inductive Bounded : List Char → List Char → Prop
  | filler {gap rest : List Char} : Filler gap → Settled rest → Bounded gap rest
  | comment {gap text rest : List Char} : Filler gap → '\n' ∉ text → '\x00' ∉ text → Ended rest →
    Bounded (gap ++ '/' :: '/' :: text) rest

theorem Bounded.cons (hpiece : Separator piece) (h : Bounded gap rest) :
    Bounded (piece ++ gap) rest := by
  cases h with
  | filler hgap hrest => exact .filler (.cons hpiece hgap) hrest
  | comment hgap hline hnul hrest =>
    rw [← List.append_assoc]
    exact .comment (.cons hpiece hgap) hline hnul hrest

/-- What has been skipped of a text, by the state in which it was begun. -/
def Skipped (text rest : List Char) : Gap → Prop
  | .blank => ∃ gap, text = gap ++ rest ∧ Bounded gap rest
  | .lineComment => ∃ comment, '\n' ∉ comment ∧ '\x00' ∉ comment ∧
      ((text = comment ++ rest ∧ Ended rest) ∨
        ∃ gap, text = comment ++ '\n' :: (gap ++ rest) ∧ Bounded gap rest)
  | .blockComment _ _ => ∃ comment gap, ¬ ['*', '/'] <:+: comment ∧ '\x00' ∉ comment ∧
      text = comment ++ '*' :: '/' :: (gap ++ rest) ∧ Bounded gap rest

theorem Skipped.cons {tail : List Char} (hpiece : Separator piece) (h : Skipped tail rest .blank) :
    Skipped (piece ++ tail) rest .blank := by
  obtain ⟨gap, rfl, hgap⟩ := h
  exact ⟨piece ++ gap, (List.append_assoc _ _ _).symm, hgap.cons hpiece⟩

theorem skipped_of_skipFrom {state : Gap}
    (h : skipFrom offset line col state text = .ok cursor) : Skipped text cursor.rest state := by
  -- one case for each equation, those that fail at the end
  fun_induction skipFrom offset line col state text with
  | case1 offset line col text ih => exact (ih h).cons .space
  | case2 offset line col text ih => exact (ih h).cons .tab
  | case3 offset line col text ih => exact (ih h).cons .lineFeed
  | case4 offset line col text ih => exact (ih h).cons .lineEnd
  | case6 offset line col text ih =>
    obtain ⟨comment, hline, hnul, ⟨rfl, hended⟩ | ⟨gap, rfl, hgap⟩⟩ := ih h
    · exact ⟨_, rfl, .comment .nil hline hnul hended⟩
    · refine ⟨'/' :: '/' :: (comment ++ ['\n']) ++ gap, by simp, ?_⟩
      exact hgap.cons (.lineComment hline hnul)
  | case7 offset line col text ih =>
    obtain ⟨comment, gap, hopen, hnul, rfl, hgap⟩ := ih h
    refine ⟨'/' :: '*' :: (comment ++ ['*', '/']) ++ gap, by simp, ?_⟩
    exact hgap.cons (.blockComment hopen hnul)
  | case8 offset line col text hspace htab hline hreturnLine hreturn hlineComment hblockComment =>
    cases h
    exact ⟨[], rfl, .filler .nil fun offset line col => skipFrom.eq_8 offset line col text hspace
      htab hline hreturnLine hreturn hlineComment hblockComment⟩
  | case9 offset line col text ih =>
    obtain ⟨gap, rfl, hgap⟩ := ih h
    exact ⟨[], List.not_mem_nil, List.not_mem_nil, .inr ⟨gap, rfl, hgap⟩⟩
  | case10 offset line col text =>
    cases h
    exact ⟨[], List.not_mem_nil, List.not_mem_nil, .inl ⟨rfl, .inr ⟨text, rfl⟩⟩⟩
  | case11 offset line col c text hc hc' ih =>
    obtain ⟨comment, hline, hnul, hcomment⟩ := ih h
    refine ⟨c :: comment, List.not_mem_cons_of_ne_of_not_mem (Ne.symm hc) hline,
      List.not_mem_cons_of_ne_of_not_mem (Ne.symm hc') hnul, ?_⟩
    rcases hcomment with ⟨rfl, hended⟩ | ⟨gap, rfl, hgap⟩
    · exact .inl ⟨rfl, hended⟩
    · exact .inr ⟨gap, rfl, hgap⟩
  | case12 offset line col =>
    cases h
    exact ⟨[], List.not_mem_nil, List.not_mem_nil, .inl ⟨rfl, .inl rfl⟩⟩
  | case13 offset line col _ _ text ih =>
    obtain ⟨gap, rfl, hgap⟩ := ih h
    exact ⟨[], gap, by simp, List.not_mem_nil, rfl, hgap⟩
  | case15 offset line col _ _ text ih =>
    obtain ⟨comment, gap, hopen, hnul, rfl, hgap⟩ := ih h
    refine ⟨'\n' :: comment, gap, ?_, by simpa using hnul, rfl, hgap⟩
    rw [List.infix_cons_iff]
    exact fun h => h.elim (fun h => by simp at h) hopen
  | case16 offset line col _ _ c text hclosed hc hline ih =>
    obtain ⟨comment, gap, hopen, hnul, rfl, hgap⟩ := ih h
    refine ⟨c :: comment, gap, ?_, List.not_mem_cons_of_ne_of_not_mem (Ne.symm hc) hnul, rfl, hgap⟩
    rw [List.infix_cons_iff]
    rintro (⟨after, hafter⟩ | h)
    · -- the comment would have been closed
      cases hafter
      exact hclosed _ rfl rfl
    · exact hopen h
  | case5 | case14 | case17 => cases h

theorem skipFrom_ended (h : Ended rest) (offset line col : Nat) :
    skipFrom offset line col .lineComment rest = .ok ⟨rest, offset, line, col⟩ := by
  rcases h with rfl | ⟨rest, rfl⟩ <;> rfl

/-- **What is skipped** is a gap that is bounded by what stands behind it, and the cursor is moved
behind it. A comment that nothing ends is not counted in columns, so the column is right only if
the text has not come to its end. -/
theorem bounded_of_skip {settled : Cursor} (h : cursor.skip = .ok settled)
    (hcursor : Behind before cursor.offset cursor.line cursor.col) :
    ∃ gap, cursor.rest = gap ++ settled.rest ∧ Bounded gap settled.rest ∧
      Counted (before ++ gap) settled.offset settled.line ∧
      (¬ Ended settled.rest →
        Filler gap ∧ Behind (before ++ gap) settled.offset settled.line settled.col) := by
  obtain ⟨gap, hrest, hgap⟩ := skipped_of_skipFrom h
  refine ⟨gap, hrest, hgap, ?_⟩
  cases hgap with
  | filler hfiller hsettled =>
    obtain ⟨cursor', hskip, -, hbehind⟩ := hfiller.skip hrest hsettled
    cases h.symm.trans hskip
    exact ⟨(hbehind _ hcursor).toCounted, fun _ => ⟨hfiller, hbehind _ hcursor⟩⟩
  | @comment gap text _ hfiller hline hnul hended =>
    refine ⟨?_, fun h => absurd hended h⟩
    -- over the filler the cursor is moved as always, and over the comment without its column
    obtain ⟨offset', line', col', hskip, hbehind⟩ :=
      hfiller.skips cursor.offset cursor.line cursor.col ('/' :: '/' :: text ++ settled.rest)
    rw [skip, hrest, List.append_assoc, hskip, List.cons_append, List.cons_append, skipFrom.eq_6,
      skipFrom_lineComment hline hnul, skipFrom_ended hended] at h
    have hmarks := ((hbehind _ hcursor).toCounted.append ['/', '/'] (by decide)).append text hline
    rw [List.append_assoc, List.append_assoc] at hmarks
    have hsettled := Except.ok.inj h
    rw [← congrArg Cursor.offset hsettled, ← congrArg Cursor.line hsettled]
    exact hmarks

end SchemaProjection.Cursor
