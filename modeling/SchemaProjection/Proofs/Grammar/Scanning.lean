import SchemaProjection.Proofs.Grammar.Lexing

/-!
# How a source splits into tokens

The converse of reading spelled lexemes: whatever the text, each token that is read is legible, and
its spelling stands in the text at the place that its span says (`Token.Stands`). What is between
two tokens is a filler. So the tokens are split off the text one by one (`Cursor.Split`), up to the
first fault, or up to the end token, which stands where the text ends or a NUL ends it
(`Source.split_tokens`).

Each class of tokens is scanned in its own way, but all are alike in what a cursor makes of them
(`Cursor.Carries`): a legible lexeme that the text begins with, and a span that covers it.
-/

namespace SchemaProjection

/-! ### Tokens in a text -/

namespace Token

/-- A token as it is written, a literal with its quotes. -/
def written (token : Token) : List Char := token.lexeme.spelling.toList

/-- The quotes around a literal do not belong to its span. -/
def margin (token : Token) : Nat := if token.kind = .string then 1 else 0

/-- **A token that stands behind a text.** -/
structure Stands (before : List Char) (token : Token) : Prop where
  legible : token.lexeme.Legible
  start_eq : token.span.start = Cursor.byteSize before + token.margin
  stop_eq : token.span.stop = token.span.start + Cursor.byteSize token.text.toList
  line_eq : token.span.line = before.count '\n' + 1
  col_eq : (∀ c ∈ Cursor.lastLine before, Cursor.isPlain c) →
    token.span.col = Cursor.byteSize (Cursor.lastLine before) + 1 + token.margin

/-- All but the end token. -/
def proper (tokens : List Token) : List Token := tokens.filter (·.kind ≠ .finish)

theorem proper_cons {token : Token} (h : token.lexeme.Legible) (tokens : List Token) :
    proper (token :: tokens) = token :: proper tokens :=
  List.filter_cons_of_pos (decide_eq_true h.kind_ne)

theorem proper_finish {token : Token} (h : token.lexeme = .finish) : proper [token] = [] :=
  List.filter_cons_of_neg fun hkind => of_decide_eq_true hkind (congrArg Lexeme.kind h)

end Token

namespace Cursor

variable {file : String} {cursor behind : Cursor} {text rest before : List Char} {token : Token}

/-! ### Numbers -/

/-- The fraction of a number, or nothing. -/
inductive IsFraction : List Char → Prop
  | none : IsFraction []
  | some {d : Char} {digits : List Char} : d.isDigit → (∀ c ∈ digits, c.isDigit) →
    IsFraction ('.' :: d :: digits)

/-- The exponent of a number, or nothing. -/
inductive IsExponent : List Char → Prop
  | none : IsExponent []
  | some {mark : Char} (sign : List Char) {digits : List Char} : mark = 'e' ∨ mark = 'E' →
    sign = [] ∨ sign = ['+'] ∨ sign = ['-'] → (∀ c ∈ digits, c.isDigit) →
    IsExponent (mark :: (sign ++ digits))

theorem fractionOf_spec (text : List Char) :
    IsFraction (fractionOf text) ∧ fractionOf text <+: text := by
  fun_cases fractionOf text with
  | case1 d rest hd =>
    exact ⟨.some hd fun c hc => List.mem_takeWhile_imp hc,
      (List.prefix_cons_inj _).mpr ((List.prefix_cons_inj _).mpr (List.takeWhile_prefix _))⟩
  | case2 | case3 => exact ⟨.none, List.nil_prefix⟩

theorem exponentOf_spec (text : List Char) :
    IsExponent (exponentOf text) ∧ exponentOf text <+: text := by
  fun_cases exponentOf text with
  | case1 c hmark s digits hsign =>
    simp only [Bool.or_eq_true, decide_eq_true_eq] at hmark hsign
    refine ⟨.some [s] hmark ?_ fun c hc => List.mem_takeWhile_imp hc,
      (List.prefix_cons_inj _).mpr ((List.prefix_cons_inj _).mpr (List.takeWhile_prefix _))⟩
    rcases hsign with rfl | rfl
    · exact .inr (.inl rfl)
    · exact .inr (.inr rfl)
  | case2 c hmark s digits _ =>
    simp only [Bool.or_eq_true, decide_eq_true_eq] at hmark
    exact ⟨.some [] hmark (.inl rfl) fun c hc =>
      List.mem_takeWhile_imp (l := s :: digits) hc,
      (List.prefix_cons_inj _).mpr (List.takeWhile_prefix _)⟩
  | case3 c hmark =>
    simp only [Bool.or_eq_true, decide_eq_true_eq] at hmark
    exact ⟨.some [] hmark (.inl rfl) (List.forall_mem_nil _), List.prefix_rfl⟩
  | case4 | case5 => exact ⟨.none, List.nil_prefix⟩

/-- A run of digits ends before a character that is none. -/
theorem takeWhile_isDigit {digits : List Char} (hdigits : ∀ c ∈ digits, c.isDigit)
    (hrest : ∀ c ∈ rest.head?, c.isDigit = false) :
    (digits ++ rest).takeWhile Char.isDigit = digits := by
  rw [List.takeWhile_append_of_pos hdigits]
  cases rest with
  | nil => rw [List.takeWhile_nil, List.append_nil]
  | cons c rest => rw [List.takeWhile_cons_of_neg (by simp [hrest c rfl]), List.append_nil]

theorem IsExponent.head_not_digit (h : IsExponent text) : ∀ c ∈ text.head?, c.isDigit = false := by
  cases h with
  | none => exact nofun
  | some _ hmark => rcases hmark with rfl | rfl <;> simp

theorem IsFraction.head_not_digit (h : IsFraction text) (hrest : IsExponent rest) :
    ∀ c ∈ (text ++ rest).head?, c.isDigit = false := by
  cases h with
  | none => exact hrest.head_not_digit
  | some => simp

theorem IsFraction.fractionOf_append (h : IsFraction text) (hrest : IsExponent rest) :
    fractionOf (text ++ rest) = text := by
  cases h with
  | none =>
    cases hrest with
    | none => rfl
    | some _ hmark => rcases hmark with rfl | rfl <;> rfl
  | some hd hdigits =>
    rw [List.cons_append, List.cons_append, fractionOf, if_pos hd,
      takeWhile_isDigit hdigits hrest.head_not_digit]

theorem IsExponent.exponentOf_eq (h : IsExponent text) : exponentOf text = text := by
  cases h with
  | none => rfl
  | @some mark sign digits hmark hsign hdigits =>
    have hall : digits.takeWhile Char.isDigit = digits := List.takeWhile_eq_self_iff.mpr hdigits
    have hmark : (decide (mark = 'e') || decide (mark = 'E')) = true := by simpa using hmark
    rcases hsign with rfl | rfl | rfl
    · cases digits with
      | nil => simp only [List.nil_append, exponentOf, hmark, if_true]
      | cons s digits =>
        -- a digit is no sign
        have hs : (decide (s = '+') || decide (s = '-')) = false := by
          have hdigit := hdigits s List.mem_cons_self
          rw [Bool.or_eq_false_iff, decide_eq_false_iff_not, decide_eq_false_iff_not]
          constructor <;> rintro rfl <;> cases hdigit
        simp only [List.nil_append, exponentOf, hmark, hs, if_true, hall, Bool.false_eq_true,
          if_false]
    · simp [exponentOf, hmark, hall]
    · simp [exponentOf, hmark, hall]

/-- The parts of the number that a text begins with. -/
theorem numberOf_spec (text : List Char) :
    ∃ digits fraction exponent, numberOf text = digits ++ (fraction ++ exponent) ∧
      (∀ c ∈ digits, c.isDigit) ∧ IsFraction fraction ∧ IsExponent exponent ∧
      numberOf text <+: text := by
  -- each part is cut off what the part before leaves
  obtain ⟨rest, hrest⟩ := List.takeWhile_prefix Char.isDigit (l := text)
  obtain ⟨hfraction, rest', hrest'⟩ := fractionOf_spec rest
  obtain ⟨hexponent, rest'', hrest''⟩ := exponentOf_spec rest'
  have hdrop : text.drop (text.takeWhile Char.isDigit).length = rest :=
    (congrArg (List.drop _) hrest).symm.trans List.drop_left
  have hdrop' : rest.drop (fractionOf rest).length = rest' :=
    (congrArg (List.drop _) hrest').symm.trans List.drop_left
  have hnumber : numberOf text =
      text.takeWhile Char.isDigit ++ (fractionOf rest ++ exponentOf rest') := by
    simp only [numberOf, hdrop, ← List.drop_drop, hdrop', List.append_assoc]
  refine ⟨_, _, _, hnumber, fun c hc => List.mem_takeWhile_imp hc, hfraction, hexponent, rest'', ?_⟩
  rw [hnumber, List.append_assoc, List.append_assoc, hrest'', hrest', hrest]

/-- A number that was read is read again. -/
theorem numberOf_numberOf (text : List Char) : numberOf (numberOf text) = numberOf text := by
  obtain ⟨digits, fraction, exponent, hnumber, hdigits, hfraction, hexponent, -⟩ :=
    numberOf_spec text
  have hwhole := takeWhile_isDigit hdigits (hfraction.head_not_digit hexponent)
  rw [hnumber, numberOf, hwhole]
  simp only [← List.drop_drop, List.drop_left, hfraction.fractionOf_append hexponent,
    hexponent.exponentOf_eq, List.append_assoc]

theorem not_mem_numberOf {c : Char} (hdigit : c.isDigit = false)
    (hmarks : c ∉ ['.', 'e', 'E', '+', '-']) (text : List Char) : c ∉ numberOf text := by
  obtain ⟨digits, fraction, exponent, hnumber, hdigits, hfraction, hexponent, -⟩ :=
    numberOf_spec text
  have hrun : ∀ {run : List Char}, (∀ d ∈ run, d.isDigit) → c ∉ run := fun hrun hc => by
    rw [hrun c hc] at hdigit
    cases hdigit
  simp only [List.mem_cons, List.not_mem_nil, or_false, not_or] at hmarks
  obtain ⟨hpoint, hlower, hupper, hplus, hminus⟩ := hmarks
  rw [hnumber, List.mem_append, List.mem_append]
  rintro (hc | hc | hc)
  · exact hrun hdigits hc
  · cases hfraction with
    | none => cases hc
    | @some d digits hd hdigits =>
      have hall : ∀ x ∈ d :: digits, x.isDigit := List.forall_mem_cons.mpr ⟨hd, hdigits⟩
      exact (List.mem_cons.mp hc).elim hpoint (hrun hall)
  · cases hexponent with
    | none => cases hc
    | some _ hmark hsign hdigits =>
      rcases List.mem_cons.mp hc with rfl | hc
      · exact hmark.elim hlower hupper
      rcases List.mem_append.mp hc with hc | hc
      · rcases hsign with rfl | rfl | rfl
        · cases hc
        · exact hplus (List.mem_singleton.mp hc)
        · exact hminus (List.mem_singleton.mp hc)
      · exact hrun hdigits hc

/-! ### Symbols -/

theorem mem_of_isDoubleSymbol {a b : Char} (h : isDoubleSymbol a b) :
    a ∈ ['=', '!', '<', '>', '&', '|'] ∧ b ∈ ['=', '>', '&', '|'] := by
  fun_cases isDoubleSymbol a b <;> simp_all [isDoubleSymbol]
  tauto

end Cursor

/-! ### Legible lexemes -/

/-- A legible lexeme is written on one line, and does not hold the end of a text. -/
theorem Lexeme.Legible.not_mem {l : Lexeme} (hl : l.Legible) :
    '\n' ∉ l.spelling.toList ∧ '\x00' ∉ l.spelling.toList := by
  cases hl with
  | symbol hs =>
    rcases Cursor.cases_of_isSymbolText hs with ⟨a, htext, hsymbol⟩ | ⟨a, b, htext, hdouble⟩
    · simp only [Lexeme.spelling, Lexeme.symbol, htext, reduceCtorEq, if_false]
      constructor <;> rintro (_ | ⟨_, _ | _⟩) <;> cases hsymbol
    · obtain ⟨ha, hb⟩ := Cursor.mem_of_isDoubleSymbol hdouble
      simp only [Lexeme.spelling, Lexeme.symbol, htext, reduceCtorEq, if_false]
      constructor <;> rintro (_ | ⟨_, _ | ⟨_, _ | _⟩⟩) <;>
        first | exact absurd ha (by decide) | exact absurd hb (by decide)
  | word hs =>
    obtain ⟨c, cs, htext, -, hchars⟩ := Cursor.exists_cons_of_isWord hs
    exact ⟨fun h => absurd (hchars _ h) (by decide), fun h => absurd (hchars _ h) (by decide)⟩
  | @number text hs =>
    have hself : Cursor.numberOf text.toList = text.toList := by
      simp only [isNumeral, Bool.and_eq_true, decide_eq_true_eq] at hs
      exact hs.1.2
    simp only [Lexeme.spelling, reduceCtorEq, if_false]
    rw [← hself]
    exact ⟨Cursor.not_mem_numberOf rfl (by decide) _, Cursor.not_mem_numberOf rfl (by decide) _⟩
  | string hcontent =>
    obtain ⟨hline, hnul⟩ := hcontent.shaped.not_mem
    simp [Lexeme.spelling, hline, hnul]

namespace Cursor

variable {file : String} {cursor behind : Cursor} {text rest before : List Char} {token : Token}

/-! ### One token -/

/-- **What a cursor makes a token of.** -/
structure Carries (file : String) (cursor : Cursor) (token : Token) : Prop where
  legible : token.lexeme.Legible
  begins : token.written <+: cursor.rest
  span_eq : token.span = ⟨file, cursor.line, cursor.col + token.margin,
    cursor.offset + token.margin,
    cursor.offset + token.margin + byteSize token.text.toList⟩

/-- A token that is no literal covers what it is written with. -/
theorem carries_token (file : String) {kind : TokenKind} (hkind : kind ≠ .string)
    (hlegible : Lexeme.Legible ⟨kind, String.ofList text⟩) (hbegins : text <+: cursor.rest) :
    cursor.Carries file (cursor.token file kind text) ∧
      (cursor.token file kind text).written = text := by
  have hwritten : (cursor.token file kind text).written = text := by
    simp [Token.written, token, Token.lexeme, Lexeme.spelling, hkind]
  refine ⟨⟨hlegible, by rwa [hwritten], ?_⟩, hwritten⟩
  simp [Token.margin, token, hkind]

theorem symbol?_eq_some {symbol : List Char} (h : symbol? text = some symbol) :
    isSymbolText (String.ofList symbol) ∧ symbol <+: text := by
  fun_cases symbol? text with
  | case1 a b rest hdouble =>
    rw [symbol?, if_pos hdouble] at h
    cases h
    exact ⟨by rw [isSymbolText, String.toList_ofList]; exact hdouble, rest, rfl⟩
  | case2 a b rest hdouble hsymbol =>
    rw [symbol?, if_neg hdouble, if_pos hsymbol] at h
    cases h
    exact ⟨by rw [isSymbolText, String.toList_ofList]; exact hsymbol, b :: rest, rfl⟩
  | case4 a hsymbol =>
    rw [symbol?, if_pos hsymbol] at h
    cases h
    exact ⟨by rw [isSymbolText, String.toList_ofList]; exact hsymbol, [], rfl⟩
  | case3 a b rest hdouble hsymbol =>
    rw [symbol?, if_neg hdouble, if_neg hsymbol] at h
    cases h
  | case5 a hsymbol =>
    rw [symbol?, if_neg hsymbol] at h
    cases h
  | case6 => cases h

theorem isWord_takeWhile {c : Char} (hc : isNameStart c) (rest : List Char) :
    isWord (String.ofList ((c :: rest).takeWhile isNameChar)) := by
  rw [List.takeWhile_cons_of_pos (isNameChar_of_isNameStart hc), isWord, String.toList_ofList]
  simp only [hc, Bool.true_and, List.all_eq_true]
  exact fun d hd => List.mem_takeWhile_imp hd

theorem carries_word (file : String) {c : Char} (hrest : cursor.rest = c :: rest)
    (hc : isNameStart c) :
    cursor.Carries file (cursor.token file .name (cursor.rest.takeWhile isNameChar)) ∧
      (cursor.token file .name (cursor.rest.takeWhile isNameChar)).written =
        cursor.rest.takeWhile isNameChar := by
  refine carries_token file (by decide) (.word ?_) (List.takeWhile_prefix _)
  rw [hrest]
  exact isWord_takeWhile hc rest

/-- The digit that a number begins with. -/
theorem head?_numberOf {c : Char} (hc : c.isDigit) (rest : List Char) :
    (numberOf (c :: rest)).head? = some c := by
  rw [numberOf, List.takeWhile_cons_of_pos hc]
  rfl

theorem carries_number {c : Char} (hrest : cursor.rest = c :: rest) (hc : c.isDigit)
    (h : cursor.takeNumber file = .ok (token, behind)) :
    cursor.Carries file token ∧ behind = cursor.advance token.written := by
  obtain ⟨-, -, -, -, -, -, -, hbegins⟩ := numberOf_spec cursor.rest
  rw [takeNumber] at h
  split_ifs at h with hends hvalue
  cases h
  have hnumeral : isNumeral (String.ofList (numberOf cursor.rest)) := by
    rw [isNumeral, String.toList_ofList, numberOf_numberOf, hrest, head?_numberOf hc, ← hrest]
    simpa [hc, Option.isSome_iff_ne_none] using hvalue
  obtain ⟨hcarries, hwritten⟩ := carries_token file (by decide) (.number hnumeral) hbegins
  exact ⟨hcarries, by rw [hwritten]⟩

theorem advance_advance (cursor : Cursor) (text rest : List Char) :
    (cursor.advance text).advance rest = cursor.advance (text ++ rest) := by
  simp only [advance, List.drop_drop, List.length_append, byteSize_append, Nat.add_assoc]

/-- What a literal is taken for. -/
theorem takeLiteral_eq_ok (h : cursor.takeLiteral file = .ok (token, behind)) :
    ∃ content tail value, cursor.literal = .ok (content, tail) ∧
      Json.Literal.decode (content ++ ['"']) = .ok value ∧
      token = (cursor.advance ['"']).token file .string content ∧
      behind = (cursor.advance ['"']).advance (content ++ ['"']) := by
  rw [takeLiteral] at h
  cases hliteral : cursor.literal with
  | error fault => rw [hliteral] at h; cases h
  | ok scanned =>
    obtain ⟨content, tail⟩ := scanned
    have hpure : cursor.literal = pure (content, tail) := hliteral
    simp only [hpure, pure_bind] at h
    cases hdecode : Json.Literal.decode (content ++ ['"']) with
    | error fault => rw [hdecode] at h; cases h
    | ok value =>
      rw [hdecode] at h
      cases h
      exact ⟨content, tail, value, rfl, hdecode, rfl, rfl⟩

theorem carries_literal (hrest : cursor.rest = '"' :: rest)
    (h : cursor.takeLiteral file = .ok (token, behind)) :
    cursor.Carries file token ∧ behind = cursor.advance token.written := by
  obtain ⟨content, tail, value, hliteral, hdecode, rfl, rfl⟩ := takeLiteral_eq_ok h
  obtain ⟨hshaped, hcontent⟩ := literalFrom_eq_ok_iff.mp hliteral
  rw [hrest, List.drop_one, List.tail_cons] at hcontent
  have hwritten : ((cursor.advance ['"']).token file .string content).written =
      '"' :: (content ++ ['"']) := by
    simp [Token.written, Cursor.token, Token.lexeme, Lexeme.spelling]
  have hlegible : IsLiteral (String.ofList content) :=
    ⟨by rwa [String.toList_ofList], value, by rwa [String.toList_ofList]⟩
  refine ⟨⟨.string hlegible, ⟨tail, ?_⟩, ?_⟩, ?_⟩
  · rw [hwritten, hrest, hcontent]
    simp
  · have hquote : '"'.utf8Size = 1 := rfl
    simp [Token.margin, Cursor.token, advance, hquote]
  · rw [advance_advance, hwritten]
    rfl

/-- **What is taken** is the end token, or one of those that the text carries. -/
theorem takeToken_cases (h : cursor.takeToken file = .ok (token, behind)) :
    (Ended cursor.rest ∧ token = cursor.token file .finish []) ∨
      (cursor.Carries file token ∧ behind = cursor.advance token.written) := by
  -- symbols go first, and what else there is, the first character tells
  rw [takeToken] at h
  split at h
  · next symbol hsymbol =>
    cases h
    obtain ⟨hlegible, hbegins⟩ := symbol?_eq_some hsymbol
    obtain ⟨hcarries, hwritten⟩ := carries_token file (by decide) (.symbol hlegible) hbegins
    exact .inr ⟨hcarries, by rw [hwritten]⟩
  · split at h
    · next hrest =>
      cases h
      exact .inl ⟨.inl hrest, rfl⟩
    · next c rest hrest =>
      split_ifs at h with hnul hquote hdigit hname
      · cases h
        exact .inl ⟨.inr ⟨rest, hnul ▸ hrest⟩, rfl⟩
      · exact .inr (carries_literal (hquote ▸ hrest) h)
      · exact .inr (carries_number hrest hdigit h)
      · cases h
        obtain ⟨hcarries, hwritten⟩ := carries_word file hrest hname
        exact .inr ⟨hcarries, by rw [hwritten]⟩

/-! ### All tokens -/

/-- **A text that splits into tokens**, with what stands before it: the tokens stand one behind the
other, with fillers between them, up to the first fault or up to the end token, which stands where
the text has come to its end. -/
inductive Split : List Char → List Char → List Token → Option LexicalFault → Prop
  | fault {before text : List Char} {fault : LexicalFault} : Split before text [] (some fault)
  | finish {before gap rest : List Char} {token : Token} : Bounded gap rest → Ended rest →
    token.lexeme = .finish → token.span.start = byteSize (before ++ gap) →
    Split before (gap ++ rest) [token] none
  | token {before gap rest : List Char} {token : Token} {tokens : List Token}
    {fault : Option LexicalFault} : Filler gap → token.Stands (before ++ gap) →
    Split (before ++ gap ++ token.written) rest tokens fault →
    Split before (gap ++ (token.written ++ rest)) (token :: tokens) fault

/-- What is carried has a character, and so has the text behind the gap. -/
theorem Carries.not_ended (h : cursor.Carries file token) : ¬ Ended cursor.rest := by
  obtain ⟨c, cs, hwritten, -⟩ := exists_cons_of_legible h.legible
  obtain ⟨tail, htail⟩ := h.begins
  rw [Token.written, hwritten] at htail
  rintro (hrest | ⟨rest, hrest⟩)
  · rw [hrest] at htail
    cases htail
  · rw [hrest] at htail
    cases htail
    exact h.legible.not_mem.2 (hwritten ▸ List.mem_cons_self)

/-- A token that is carried stands behind what the cursor stands behind, and so does the cursor
behind it. -/
theorem Carries.stands (h : cursor.Carries file token)
    (hcursor : Behind before cursor.offset cursor.line cursor.col) :
    token.Stands before ∧ Behind (before ++ token.written) (cursor.advance token.written).offset
      (cursor.advance token.written).line (cursor.advance token.written).col := by
  refine ⟨⟨h.legible, ?_, ?_, ?_, fun hplain => ?_⟩,
    hcursor.append token.written h.legible.not_mem.1 fun _ => rfl⟩
  · rw [h.span_eq, hcursor.offset_eq]
  · rw [h.span_eq]
  · rw [h.span_eq, hcursor.line_eq]
  · rw [h.span_eq, hcursor.col_eq hplain]

theorem next_eq_ok (h : cursor.next file = .ok (token, behind)) :
    ∃ settled, cursor.skip = .ok settled ∧ settled.takeToken file = .ok (token, behind) := by
  rw [next] at h
  cases hskip : cursor.skip with
  | error fault => rw [hskip] at h; cases h
  | ok settled =>
    have hpure : cursor.skip = pure settled := hskip
    rw [hpure, pure_bind] at h
    exact ⟨settled, rfl, h⟩

/-- **One token more**: the text has come to its end, or the next token stands behind a filler. -/
theorem next_cases (hcursor : Behind before cursor.offset cursor.line cursor.col)
    (h : cursor.next file = .ok (token, behind)) :
    (∃ gap rest, cursor.rest = gap ++ rest ∧ Bounded gap rest ∧ Ended rest ∧
      token.lexeme = .finish ∧ token.span.start = byteSize (before ++ gap)) ∨
    ∃ gap, cursor.rest = gap ++ (token.written ++ behind.rest) ∧ Filler gap ∧
      token.Stands (before ++ gap) ∧
      Behind (before ++ gap ++ token.written) behind.offset behind.line behind.col := by
  obtain ⟨settled, hskip, htake⟩ := next_eq_ok h
  obtain ⟨gap, hrest, hgap, hcounted, hbehind⟩ := bounded_of_skip hskip hcursor
  rcases takeToken_cases htake with ⟨hended, rfl⟩ | ⟨hcarries, rfl⟩
  · exact .inl ⟨gap, settled.rest, hrest, hgap, hended, rfl, hcounted.offset_eq⟩
  · obtain ⟨hfiller, hbehind⟩ := hbehind hcarries.not_ended
    obtain ⟨tail, htail⟩ := hcarries.begins
    refine .inr ⟨gap, ?_, hfiller, hcarries.stands hbehind⟩
    rw [rest_advance htail.symm, htail, hrest]

theorem split_tokens (file : String) (cursor : Cursor)
    (hcursor : Behind before cursor.offset cursor.line cursor.col) {fuel : Nat}
    (hfuel : cursor.rest.length < fuel) :
    Split before cursor.rest (cursor.tokens file fuel).1 (cursor.tokens file fuel).2 := by
  induction fuel generalizing cursor before with
  | zero => cases hfuel
  | succ fuel ih =>
    rw [tokens]
    cases hnext : cursor.next file with
    | error fault => exact .fault
    | ok taken =>
      obtain ⟨token, behind⟩ := taken
      rcases next_cases hcursor hnext with
        ⟨gap, rest, hrest, hgap, hended, hlexeme, hstart⟩ | ⟨gap, hrest, hgap, hstands, hbehind⟩
      · have hkind : token.kind = .finish := congrArg Lexeme.kind hlexeme
        simp only [hkind, if_true]
        rw [hrest]
        exact .finish hgap hended hlexeme hstart
      · have hkind : token.kind ≠ .finish := hstands.legible.kind_ne
        simp only [hkind, if_false]
        -- the token has a character, so the text behind it is shorter
        have hlength : behind.rest.length < fuel := by
          obtain ⟨c, cs, hwritten, -⟩ := exists_cons_of_legible hstands.legible
          rw [hrest, Token.written, hwritten] at hfuel
          simp only [List.length_append, List.length_cons] at hfuel
          omega
        rw [hrest]
        exact .token hgap hstands (ih behind hbehind hlength)

end Cursor

/-- **The tokens of a source** are split off its text. -/
theorem Source.split_tokens (source : Source) :
    Cursor.Split [] source.text.toList source.tokens.1 source.tokens.2 :=
  Cursor.split_tokens source.file (Cursor.ofSource source) Cursor.behind_nil (Nat.lt_succ_self _)

/-- There is a token, or else a fault. -/
theorem Source.tokens_ne (source : Source) : source.tokens ≠ ([], none) := by
  intro h
  have hsplit := source.split_tokens
  generalize source.text.toList = text at hsplit
  rw [h] at hsplit
  cases hsplit

end SchemaProjection
