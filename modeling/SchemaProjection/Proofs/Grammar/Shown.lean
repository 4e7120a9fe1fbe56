import SchemaProjection.Proofs.Grammar.Lines
import SchemaProjection.Proofs.Grammar.Reports

/-!
# Every fault is shown with its line

The lexer counts lines on its own, while the line table is made from the text. They agree: a cursor
keeps to the lines of the text that is left to it (`Cursor.Covers`), and so do the places of all
tokens and of the fault behind them (`Source.line_of_place`). A parser reports no other places, and
so the line of a fault is in the table whatever reads the source.
-/

namespace SchemaProjection

namespace Cursor

variable {file : String} {cursor behind : Cursor} {token : Token} {fault : LexicalFault}
  {first offset line col : Nat}

/-! ### Lines of a cursor -/

/-- The line on which the text behind a cursor ends. -/
def lastLineNumber (cursor : Cursor) : Nat := cursor.line + cursor.rest.count '\n'

/-- **A line of the text behind a cursor.** -/
def Covers (cursor : Cursor) (line : Nat) : Prop :=
  cursor.line ≤ line ∧ line ≤ cursor.lastLineNumber

theorem covers_line (cursor : Cursor) : cursor.Covers cursor.line :=
  ⟨Nat.le_refl _, Nat.le_add_right _ _⟩

/-- **A cursor further on in the same text.** -/
structure Leads (cursor behind : Cursor) : Prop where
  line_le : cursor.line ≤ behind.line
  last_eq : behind.lastLineNumber = cursor.lastLineNumber

theorem Leads.covers (h : cursor.Leads behind) (hline : behind.Covers line) : cursor.Covers line :=
  ⟨h.line_le.trans hline.1, h.last_eq ▸ hline.2⟩

theorem Leads.trans {last : Cursor} (h : cursor.Leads behind) (h' : behind.Leads last) :
    cursor.Leads last :=
  ⟨h.line_le.trans h'.line_le, h'.last_eq.trans h.last_eq⟩

/-- Text of one line leads on. -/
theorem leads_advance {text tail : List Char} (htext : cursor.rest = text ++ tail)
    (hline : '\n' ∉ text) : cursor.Leads (cursor.advance text) := by
  refine ⟨Nat.le_refl _, ?_⟩
  rw [lastLineNumber, rest_advance htext, lastLineNumber, htext, List.count_append,
    List.count_eq_zero.mpr hline, Nat.zero_add]
  rfl

/-! ### Gaps -/

/-- What is reached, or reported, is on one of some lines, of which the last is the one on which the
text ends. -/
def OnLines (first last : Nat) : Except LexicalFault Cursor → Prop
  | .ok settled => first ≤ settled.line ∧ settled.lastLineNumber = last
  | .error fault => first ≤ fault.line ∧ fault.line ≤ last

theorem count_lineFeed (line : Nat) (text : List Char) :
    line + ('\n' :: text).count '\n' = line + 1 + text.count '\n' := by
  rw [List.count_cons_self, Nat.add_right_comm, Nat.add_assoc]

/-- A comment of a gap began on one of some lines. -/
def Gap.BegunOn (first last : Nat) : Gap → Prop
  | .blank | .lineComment => True
  | .blockComment line _ => first ≤ line ∧ line ≤ last

/-- A comment without end is reported where it begins, which is none of the lines that are left but
one of those from `first` on. -/
theorem onLines_skipFrom {state : Gap} {text : List Char} (hfirst : first ≤ line)
    (hstate : state.BegunOn first line) :
    OnLines first (line + text.count '\n') (skipFrom offset line col state text) := by
  fun_induction skipFrom offset line col state text with
  | case1 offset line col text ih => exact ih hfirst trivial
  | case2 offset line col text ih => exact ih hfirst trivial
  | case3 offset line col text ih =>
    rw [count_lineFeed]
    exact ih (Nat.le_succ_of_le hfirst) trivial
  | case4 offset line col text ih =>
    rw [List.count_cons_of_ne (by decide), count_lineFeed]
    exact ih (Nat.le_succ_of_le hfirst) trivial
  | case5 => exact ⟨hfirst, Nat.le_add_right _ _⟩
  | case6 offset line col text ih => exact ih hfirst trivial
  | case7 offset line col text ih =>
    exact ih hfirst ⟨hfirst, Nat.le_refl _⟩
  | case8 => exact ⟨hfirst, rfl⟩
  | case9 offset line col text ih =>
    rw [count_lineFeed]
    exact ih (Nat.le_succ_of_le hfirst) trivial
  | case10 => exact ⟨hfirst, rfl⟩
  | case11 offset line col c text hc hc' ih =>
    rw [List.count_cons_of_ne hc]
    exact ih hfirst trivial
  | case12 => exact ⟨hfirst, rfl⟩
  | case13 offset line col _ _ text ih => exact ih hfirst trivial
  | case14 offset line col l c text =>
    exact ⟨hstate.1, Nat.le_add_right_of_le hstate.2⟩
  | case15 offset line col l c text ih =>
    rw [count_lineFeed]
    exact ih (Nat.le_succ_of_le hfirst) ⟨hstate.1, Nat.le_succ_of_le hstate.2⟩
  | case16 offset line col l c d text hclosed hd hd' ih =>
    rw [List.count_cons_of_ne hd']
    exact ih hfirst hstate
  | case17 => exact hstate

/-- **A gap leads on**, and where it cannot be skipped, the fault is on one of the lines. -/
theorem covers_skip (cursor : Cursor) :
    match cursor.skip with
    | .ok settled => cursor.Leads settled
    | .error fault => cursor.Covers fault.line := by
  have hlines : OnLines cursor.line cursor.lastLineNumber cursor.skip :=
    onLines_skipFrom (Nat.le_refl _) trivial
  cases hskip : cursor.skip with
  | error fault =>
    rw [hskip] at hlines
    exact hlines
  | ok settled =>
    rw [hskip] at hlines
    exact ⟨hlines.1, hlines.2⟩

/-! ### Tokens -/

theorem line_of_literalFrom {unmatched : LexicalFault} {hex : Nat} {done text : List Char}
    (hunmatched : unmatched.line = line)
    (h : literalFrom unmatched line hex col done text = .error fault) : fault.line = line := by
  fun_induction literalFrom unmatched line hex col done text with
  | case1 _ _ _ _ _ _ ih | case7 _ _ _ ih | case8 _ _ _ _ _ _ ih | case11 _ _ _ _ _ _ _ _ _ _ ih =>
    exact ih h
  | case2 | case3 | case6 | case9 | case10 =>
    cases h
    rfl
  | case5 | case12 =>
    cases h
    exact hunmatched
  | case4 => cases h

theorem line_of_takeLiteral (h : cursor.takeLiteral file = .error fault) :
    fault.line = cursor.line := by
  rw [takeLiteral] at h
  cases hliteral : cursor.literal with
  | error unread =>
    rw [hliteral] at h
    cases h
    have hliteral : literalFrom ⟨.unmatchedQuote, cursor.line, cursor.col⟩ cursor.line 0
        (cursor.col + 1) [] (cursor.rest.drop 1) = .error fault := hliteral
    exact line_of_literalFrom rfl hliteral
  | ok scanned =>
    obtain ⟨content, tail⟩ := scanned
    have hpure : cursor.literal = pure (content, tail) := hliteral
    simp only [hpure, pure_bind] at h
    cases hdecode : Json.Literal.decode (content ++ ['"']) with
    | error undecoded =>
      rw [hdecode] at h
      cases h
      rfl
    | ok value =>
      rw [hdecode] at h
      cases h

/-- Where no token can be taken, the fault is on the line of the cursor. -/
theorem line_of_takeToken (h : cursor.takeToken file = .error fault) :
    fault.line = cursor.line := by
  rw [takeToken] at h
  split at h
  · cases h
  · split at h
    · cases h
    · split_ifs at h
      · exact line_of_takeLiteral h
      · rw [takeNumber] at h
        split_ifs at h <;> cases h <;> rfl
      · cases h
        rfl

/-- **A token leads on**, but for the end token, and is on one of the lines. -/
theorem leads_of_takeToken (h : cursor.takeToken file = .ok (token, behind)) :
    token.span.line = cursor.line ∧ (token.kind ≠ .finish → cursor.Leads behind) := by
  rcases takeToken_cases h with ⟨-, rfl⟩ | ⟨hcarries, rfl⟩
  · exact ⟨rfl, fun h => absurd rfl h⟩
  · obtain ⟨tail, htail⟩ := hcarries.begins
    refine ⟨by rw [hcarries.span_eq], fun _ => ?_⟩
    exact leads_advance htail.symm hcarries.legible.not_mem.1

/-- **One token more** is on one of the lines, and so is the fault in its place. -/
theorem covers_next (file : String) (cursor : Cursor) :
    match cursor.next file with
    | .ok (token, behind) =>
      cursor.Covers token.span.line ∧ (token.kind ≠ .finish → cursor.Leads behind)
    | .error fault => cursor.Covers fault.line := by
  have hgap := cursor.covers_skip
  rw [next]
  cases hskip : cursor.skip with
  | error fault =>
    rw [hskip] at hgap
    exact hgap
  | ok settled =>
    rw [hskip] at hgap
    show match settled.takeToken file with
      | .ok (token, behind) =>
        cursor.Covers token.span.line ∧ (token.kind ≠ .finish → cursor.Leads behind)
      | .error fault => cursor.Covers fault.line
    cases htake : settled.takeToken file with
    | error fault =>
      have hline : fault.line = settled.line := line_of_takeToken htake
      exact hgap.covers (hline ▸ settled.covers_line)
    | ok taken =>
      obtain ⟨token, behind⟩ := taken
      obtain ⟨hline, hbehind⟩ := leads_of_takeToken htake
      exact ⟨hgap.covers (hline ▸ settled.covers_line), fun h => hgap.trans (hbehind h)⟩

/-- **All tokens are on the lines of the text**, and so is the fault behind them. -/
theorem covers_tokens (file : String) (fuel : Nat) (cursor : Cursor) :
    (∀ token ∈ (cursor.tokens file fuel).1, cursor.Covers token.span.line) ∧
      ∀ fault ∈ (cursor.tokens file fuel).2, cursor.Covers fault.line := by
  induction fuel generalizing cursor with
  | zero => exact ⟨List.forall_mem_nil _, fun _ h => absurd h (Option.not_mem_none _)⟩
  | succ fuel ih =>
    have hfirst := covers_next file cursor
    rw [tokens]
    cases hnext : cursor.next file with
    | error fault =>
      rw [hnext] at hfirst
      refine ⟨List.forall_mem_nil _, ?_⟩
      rintro _ ⟨⟩
      exact hfirst
    | ok taken =>
      obtain ⟨token, behind⟩ := taken
      rw [hnext] at hfirst
      obtain ⟨hline, hleads⟩ := hfirst
      by_cases hkind : token.kind = .finish
      · simp only [hkind, if_true]
        exact ⟨List.forall_mem_singleton.mpr hline, fun _ h => absurd h (Option.not_mem_none _)⟩
      · simp only [hkind, if_false]
        obtain ⟨htokens, hfault⟩ := ih behind
        have hbehind := hleads hkind
        exact ⟨List.forall_mem_cons.mpr ⟨hline, fun later h => hbehind.covers (htokens later h)⟩,
          fun fault h => hbehind.covers (hfault fault h)⟩

end Cursor

namespace Source

variable {source : Source} {α : Type}

/-- **The places of a source are on its lines.** -/
theorem line_of_place {line col : Nat} (h : source.Place line col) :
    1 ≤ line ∧ line ≤ source.lineTable.length := by
  have hlast : (Cursor.ofSource source).lastLineNumber = source.lineTable.length := by
    rw [length_lineTable, Nat.add_comm]
    rfl
  have hcovers := Cursor.covers_tokens source.file ((Cursor.ofSource source).rest.length + 1)
    (Cursor.ofSource source)
  rw [← hlast]
  rcases h with ⟨token, htoken, rfl, -⟩ | ⟨fault, hfault, rfl, -⟩
  · exact hcovers.1 token htoken
  · exact hcovers.2 fault hfault

/-- **A parser reports a place of the source**, if it does so on the stream of all tokens. -/
theorem place_of_read {entry : Parsers → Parse α} {fault : SyntaxFault}
    (hentry : ∀ levels s, (entry (parsers levels)).Reports source.Place s)
    (h : source.read entry = .error fault) : source.Place fault.line fault.col := by
  rw [read] at h
  split at h
  · next token rest behind htokens =>
    have hwithin : TokenStream.Within source.Place ⟨token, rest, behind, 0⟩ := by
      refine ⟨fun t ht => .inl ⟨t, ?_, rfl, rfl⟩, fun f hf => .inr ⟨f, ?_, rfl, rfl⟩⟩
      · rw [htokens]
        exact ht
      · rw [htokens]
        exact hf
    have hplace := hentry (rest.length + 2) ⟨token, rest, behind, 0⟩ hwithin
    rw [h] at hplace
    exact hplace
  · next lexical htokens =>
    cases h
    exact .inr ⟨lexical, by rw [htokens]; rfl, rfl, rfl⟩
  · next htokens => exact absurd htokens source.tokens_ne

/-! ### Messages -/

/-- **A message that shows a place**: its line is in the table, and is shown with a caret. -/
structure Shows (source : Source) (line col : Nat) (text message : String) : Prop where
  one_le : 1 ≤ line
  le_length : line ≤ source.lineTable.length
  message_eq : message = source.excerpt line col "error" text
  line_shown : ∃ front back, message = front ++ s!"{line} | {source.line (line - 1)}\n" ++ back

theorem padRight_succ (text : String) : padRight (text.length + 1) text = text ++ " " := by
  rw [padRight, Nat.add_sub_cancel_left, List.replicate_one]

theorem excerpt_shows (source : Source) (line col : Nat) (kind text : String) :
    ∃ front back, source.excerpt line col kind text =
      front ++ s!"{line} | {source.line (line - 1)}\n" ++ back := by
  let margin := padRight ((toString line).length + 1) ""
  let indent := padRight (col - 1) ""
  -- the parts meet in the middle of a few literals
  have hbar : " | " = " " ++ "| " := rfl
  have hcaret : "^\n" = "^" ++ "\n" := rfl
  refine ⟨s!"\n--> {source.file}:{line}:{col}\n{margin}|\n",
    s!"{margin}| {indent}^\n{kind}: {text}", ?_⟩
  unfold excerpt
  simp only [padRight_succ, toString, hbar, hcaret, String.append_assoc, margin, indent]

theorem shows_of_place {line col : Nat} (h : source.Place line col) (text : String) :
    source.Shows line col text (source.message line col "error" text) := by
  obtain ⟨hfirst, hlast⟩ := line_of_place h
  have hmessage : source.message line col "error" text = source.excerpt line col "error" text :=
    if_neg (Nat.not_lt.mpr hlast)
  refine ⟨hfirst, hlast, hmessage, ?_⟩
  rw [hmessage]
  exact source.excerpt_shows line col "error" text

/-- All faults of a parser are shown. -/
def ShowsFaults (source : Source) (entry : Parsers → Parse α) : Prop :=
  ∀ fault, source.read entry = .error fault →
    source.Shows fault.line fault.col fault.cause.text (fault.message source)

theorem showsFaults {entry : Parsers → Parse α}
    (hentry : ∀ levels s, (entry (parsers levels)).Reports source.Place s) :
    source.ShowsFaults entry :=
  fun fault h => shows_of_place (place_of_read hentry h) fault.cause.text

/-! ### The table and the text -/

/-- Each entry of the table cuts out the line of its index. -/
theorem cuts_getElem? {i : Nat} {text : List Char} (h : source.lineTexts[i]? = some text) :
    ∃ entry, source.lineTable[i]? = some entry ∧ source.Cuts entry text := by
  obtain ⟨hlength, hcuts⟩ := List.forall₂_iff_get.mp source.cuts_lineTable
  obtain ⟨hi, htext⟩ := List.getElem?_eq_some_iff.mp h
  have hi' : i < source.lineTable.length := hlength ▸ hi
  exact ⟨_, List.getElem?_eq_getElem hi', htext ▸ hcuts i hi' hi⟩

/-- Each entry of the table cuts out some line. -/
theorem cuts_of_mem {entry : Nat × Nat} (h : entry ∈ source.lineTable) :
    ∃ text, source.Cuts entry text := by
  obtain ⟨hlength, hcuts⟩ := List.forall₂_iff_get.mp source.cuts_lineTable
  obtain ⟨i, hi, rfl⟩ := List.mem_iff_getElem.mp h
  exact ⟨_, hcuts i hi (hlength ▸ hi)⟩

theorem line_eq {i : Nat} {piece : List Char}
    (h : (source.text.toList.splitOn '\n')[i]? = some piece) :
    (source.line i).toList =
      if i + 1 < source.lineTable.length then dropReturn piece else piece := by
  have htext : source.lineTexts[i]? =
      some (if i + 1 < source.lineTable.length then dropReturn piece else piece) := by
    rw [lineTexts, trimmed_getElem?, h, Option.map_some, length_splitOn, length_lineTable]
  obtain ⟨⟨start, stop⟩, hentry, hcuts⟩ := cuts_getElem? htext
  have hline : source.line i = source.between start stop := by
    rw [line, hentry]
  rw [hline, hcuts.between_eq, String.toList_ofList]

/-- The last line keeps its carriage return. -/
example : (List.range 4).map (Source.line ⟨"t", "ä\r\n\nb\r"⟩) = ["ä", "", "b\r", ""] := by
  decide +kernel

end Source

end SchemaProjection
