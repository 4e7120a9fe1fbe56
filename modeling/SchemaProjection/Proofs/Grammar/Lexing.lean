import Mathlib.Data.List.TakeWhile
import SchemaProjection.Proofs.Grammar.Gaps
import SchemaProjection.Proofs.Grammar.Literals

/-!
# Spelled lexemes are read back

A **legible** lexeme is one that its spelling gives back: a symbol, a word, a number or a string
literal (`Lexeme.Legible`). A text of legible lexemes splits into tokens with just these lexemes,
and an end token, if there are spaces between them, be it single ones or with any fillers behind
them (`Source.tokens_spread`).

A token ends before a space, so a class of characters is followed as far as the spelling goes.
String literals are the exception: they may contain spaces, and end at their closing quote.
-/

namespace SchemaProjection

/-! ### What is legible -/

/-- A text that is read as one symbol. -/
def isSymbolText (text : String) : Bool :=
  match text.toList with
  | [a] => Cursor.isSymbol a
  | [a, b] => Cursor.isDoubleSymbol a b
  | _ => false

/-- A text that is read as the content of one string literal. -/
structure IsLiteral (content : String) : Prop where
  shaped : Cursor.Shaped 0 content.toList
  decodes : ∃ value, Json.Literal.decode (content.toList ++ ['"']) = .ok value

/-- **A lexeme that its spelling gives back.** -/
inductive Lexeme.Legible : Lexeme → Prop
  | symbol {text : String} : isSymbolText text → Legible (.symbol text)
  | word {text : String} : isWord text → Legible (.word text)
  | number {text : String} : isNumeral text → Legible ⟨.number, text⟩
  | string {content : String} : IsLiteral content → Legible ⟨.string, content⟩

/-- **Every spelling of a string is legible.** -/
theorem IsLiteral.of_spelling {s : List Char} {content : String}
    (h : Json.Literal.Spelling s content.toList) : IsLiteral content :=
  ⟨Cursor.shaped_of_spelling h, _, Json.Literal.decode_of_spelling h⟩

theorem Lexeme.Legible.kind_ne {l : Lexeme} (hl : l.Legible) : l.kind ≠ .finish := by
  cases hl <;> exact nofun

theorem Lexeme.Legible.quoted (s : String) : Legible ⟨.string, quotedText s⟩ :=
  .string (.of_spelling (Json.Literal.spelling_quotedText s))

namespace Cursor

variable {cursor : Cursor} {text tail : List Char}

/-! ### Where words and numbers end -/

theorem takeWhile_append_spaced {p : Char → Bool} (hp : p ' ' = false) (text : List Char)
    (htail : Spaced tail) : (text ++ tail).takeWhile p = text.takeWhile p := by
  induction text with
  | nil =>
    rcases htail with rfl | ⟨rest, rfl⟩
    · rfl
    · rw [List.nil_append, List.takeWhile_cons_of_neg (by simp [hp]), List.takeWhile_nil]
  | cons c text ih => rw [List.cons_append, List.takeWhile_cons, List.takeWhile_cons, ih]

theorem fractionOf_append (htail : Spaced tail) : fractionOf (text ++ tail) = fractionOf text := by
  rcases text with _ | ⟨a, _ | ⟨d, rest⟩⟩
  · rcases htail with rfl | ⟨rest, rfl⟩ <;> rfl
  · -- a dot is no fraction without a digit, and behind it is a space or nothing
    rcases htail with rfl | ⟨rest, rfl⟩
    · rfl
    · by_cases ha : a = '.'
      · subst ha
        rfl
      · simp [fractionOf, ha]
  · by_cases ha : a = '.'
    · subst ha
      have hdigits := takeWhile_append_spaced (p := Char.isDigit) rfl rest htail
      simp only [List.cons_append, fractionOf, hdigits]
    · simp [fractionOf, ha]

theorem length_fractionOf_le (text : List Char) : (fractionOf text).length ≤ text.length := by
  fun_cases fractionOf text with
  | case1 d rest =>
    have hle : (rest.takeWhile Char.isDigit).length ≤ rest.length :=
      (List.takeWhile_prefix _).length_le
    simpa using hle
  | case2 | case3 => exact Nat.zero_le _

theorem exponentOf_append (htail : Spaced tail) : exponentOf (text ++ tail) = exponentOf text := by
  rcases text with _ | ⟨c, _ | ⟨s, digits⟩⟩
  · rcases htail with rfl | ⟨rest, rfl⟩ <;> rfl
  · rcases htail with rfl | ⟨rest, rfl⟩ <;> rfl
  · have hdigits := takeWhile_append_spaced (p := Char.isDigit) rfl digits htail
    have hall := takeWhile_append_spaced (p := Char.isDigit) rfl (s :: digits) htail
    rw [List.cons_append] at hall
    simp only [List.cons_append, exponentOf, hdigits, hall]

/-- A number ends before a space. -/
theorem numberOf_append (htail : Spaced tail) : numberOf (text ++ tail) = numberOf text := by
  have hwhole := takeWhile_append_spaced (p := Char.isDigit) rfl text htail
  have hle : (text.takeWhile Char.isDigit).length ≤ text.length :=
    (List.takeWhile_prefix _).length_le
  have hfraction := length_fractionOf_le (text.drop (text.takeWhile Char.isDigit).length)
  rw [List.length_drop] at hfraction
  simp only [numberOf, hwhole, List.drop_append_of_le_length hle, fractionOf_append htail]
  rw [List.drop_append_of_le_length (by omega), exponentOf_append htail]

/-! ### Where a token begins -/

/-- Blanks and the characters that symbols begin with. -/
def marks : List Char :=
  [' ', '\t', '\n', '\r', '{', '}', '[', ']', '(', ')', '+', '-', '*', '/', '<', '>', '!', ',', ';',
    '.', ':', '#', '@', '=', '&', '|']

/-- A class of characters has none of those that are not in it. -/
theorem not_mem_of_class {p : Char → Bool} {excluded : List Char} (hp : excluded.any p = false)
    {c : Char} (hc : p c) : c ∉ excluded :=
  fun hmem => List.any_eq_false.mp hp c hmem hc

/-- Only marks begin a symbol. -/
theorem symbol?_eq_none {c : Char} (hc : c ∉ marks) (rest : List Char) :
    symbol? (c :: rest) = none := by
  have hsymbols : ['{', '}', '[', ']', '(', ')', '+', '-', '*', '/', '<', '>', '!', ',', ';', '.',
      ':', '#', '@'] ⊆ marks := by decide
  have hsymbol : isSymbol c = false := by
    rw [isSymbol, List.contains_eq_mem]
    exact decide_eq_false fun hmem => hc (hsymbols hmem)
  have hdouble : ∀ b, isDoubleSymbol c b = false := by
    intro b
    fun_cases isDoubleSymbol c b <;> first | rfl | exact absurd (by decide) hc
  cases rest with
  | nil => simp [symbol?, hsymbol]
  | cons b rest => simp [symbol?, hsymbol, hdouble b]

/-! ### One token -/

/-- What a cursor has to do for a lexeme: read it up to the text behind it. -/
def Takes (file : String) (cursor : Cursor) (l : Lexeme) (tail : List Char) : Prop :=
  ∃ token behind, cursor.takeToken file = .ok (token, behind) ∧ token.lexeme = l ∧
    behind.rest = tail

theorem lexeme_token (file : String) (cursor : Cursor) (kind : TokenKind) (text : String) :
    (cursor.token file kind text.toList).lexeme = ⟨kind, text⟩ := by
  rw [token, String.ofList_toList]
  rfl

theorem rest_advance (hrest : cursor.rest = text ++ tail) : (cursor.advance text).rest = tail := by
  rw [advance, hrest]
  exact List.drop_left

/-- A symbol is one character or two. -/
theorem cases_of_isSymbolText {s : String} (hs : isSymbolText s) :
    (∃ a, s.toList = [a] ∧ isSymbol a) ∨ ∃ a b, s.toList = [a, b] ∧ isDoubleSymbol a b := by
  rw [isSymbolText] at hs
  split at hs
  · next a htext => exact .inl ⟨a, htext, hs⟩
  · next a b htext => exact .inr ⟨a, b, htext, hs⟩
  · cases hs

/-- A symbol ends before a space. -/
theorem symbol?_append {s : String} (hs : isSymbolText s) (htail : Spaced tail) :
    symbol? (s.toList ++ tail) = some s.toList := by
  rcases cases_of_isSymbolText hs with ⟨a, htext, hsymbol⟩ | ⟨a, b, htext, hdouble⟩ <;> rw [htext]
  · rcases htail with rfl | ⟨rest, rfl⟩
    · exact if_pos hsymbol
    · -- no symbol has a space as its second character
      have hsingle : isDoubleSymbol a ' ' = false := by
        fun_cases isDoubleSymbol a ' ' <;> rfl
      show (if isDoubleSymbol a ' ' then some [a, ' '] else if isSymbol a then some [a] else none)
        = some [a]
      rw [hsingle, if_neg Bool.false_ne_true, if_pos hsymbol]
  · exact if_pos hdouble

theorem takes_symbol (file : String) {s : String} (hs : isSymbolText s)
    (hrest : cursor.rest = s.toList ++ tail) (htail : Spaced tail) :
    cursor.Takes file (.symbol s) tail := by
  refine ⟨_, _, ?_, lexeme_token file cursor .symbol s, rest_advance hrest⟩
  rw [takeToken, hrest, symbol?_append hs htail]
  rfl

theorem isDigit_of_isNameStart {c : Char} (h : isNameStart c) : c.isDigit = false := by
  rw [Bool.eq_false_iff]
  intro hdigit
  obtain ⟨hzero, hnine⟩ : '0'.val ≤ c.val ∧ c.val ≤ '9'.val :=
    (Bool.and_eq_true_iff.mp hdigit).imp of_decide_eq_true of_decide_eq_true
  rw [isNameStart, Bool.or_eq_true, Bool.or_eq_true, decide_eq_true_eq, decide_eq_true_eq] at h
  rcases h with (halpha | rfl) | rfl
  · rcases Bool.or_eq_true_iff.mp halpha with hupper | hlower
    · have hle : 'A'.val ≤ c.val := (of_decide_eq_true hupper).1
      exact absurd (UInt32.le_trans hle hnine) (by decide)
    · have hle : 'a'.val ≤ c.val := of_decide_eq_true (Bool.and_eq_true_iff.mp hlower).1
      exact absurd (UInt32.le_trans hle hnine) (by decide)
  · exact absurd hnine (by decide)
  · exact absurd hzero (by decide)

/-- All characters of a word may stand inside a word. -/
theorem isNameChar_of_isNameStart {c : Char} (h : isNameStart c) : isNameChar c := by
  simp only [isNameStart, Bool.or_eq_true] at h
  simp only [isNameChar, Char.isAlphanum, Bool.or_eq_true]
  tauto

theorem exists_cons_of_isWord {s : String} (hs : isWord s) :
    ∃ c cs, s.toList = c :: cs ∧ isNameStart c ∧ ∀ d ∈ s.toList, isNameChar d := by
  rw [isWord] at hs
  split at hs
  · next c cs htext =>
    rw [Bool.and_eq_true, List.all_eq_true] at hs
    rw [htext]
    exact ⟨c, cs, rfl, hs.1, List.forall_mem_cons.mpr ⟨isNameChar_of_isNameStart hs.1, hs.2⟩⟩
  · cases hs

theorem takes_word (file : String) {s : String} (hs : isWord s)
    (hrest : cursor.rest = s.toList ++ tail) (htail : Spaced tail) :
    cursor.Takes file (.word s) tail := by
  obtain ⟨c, cs, htext, hstart, hchars⟩ := exists_cons_of_isWord hs
  have hmarks : c ∉ marks := not_mem_of_class rfl hstart
  have hnul : c ≠ '\x00' := fun h => by simp [h, isNameStart] at hstart
  have hquote : c ≠ '"' := fun h => by simp [h, isNameStart] at hstart
  have hword : (s.toList ++ tail).takeWhile isNameChar = s.toList := by
    rw [takeWhile_append_spaced rfl _ htail]
    exact List.takeWhile_eq_self_iff.mpr hchars
  refine ⟨_, _, ?_, lexeme_token file cursor .name s, rest_advance hrest⟩
  rw [takeToken, hrest, hword, htext, List.cons_append, symbol?_eq_none hmarks]
  simp only [hnul, hquote, isDigit_of_isNameStart hstart, hstart, if_false, if_true,
    Bool.false_eq_true]
  rfl

theorem exists_cons_of_isNumeral {s : String} (hs : isNumeral s) :
    ∃ c cs, s.toList = c :: cs ∧ c.isDigit := by
  simp only [isNumeral, Bool.and_eq_true] at hs
  cases htext : s.toList with
  | nil => simp [htext] at hs
  | cons c cs => exact ⟨c, cs, rfl, by simpa [htext] using hs.1.1⟩

theorem takes_number (file : String) {s : String} (hs : isNumeral s)
    (hrest : cursor.rest = s.toList ++ tail) (htail : Spaced tail) :
    cursor.Takes file ⟨.number, s⟩ tail := by
  obtain ⟨c, cs, htext, hdigit⟩ := exists_cons_of_isNumeral hs
  simp only [isNumeral, Bool.and_eq_true, decide_eq_true_eq] at hs
  have hmarks : c ∉ marks := not_mem_of_class rfl hdigit
  have hnul : c ≠ '\x00' := fun h => by simp [h] at hdigit
  have hquote : c ≠ '"' := fun h => by simp [h] at hdigit
  have htake : numberOf cursor.rest = s.toList := by
    rw [hrest, numberOf_append htail, hs.1.2]
  have hends : tail.head?.any continuesNumber = false := by
    rcases htail with rfl | ⟨rest, rfl⟩ <;> rfl
  have hvalue : (Double.ofText? s).isNone = false := by
    rw [← Option.not_isSome, hs.2]
    rfl
  have hnumber : cursor.takeNumber file = .ok (cursor.take file .number s.toList) := by
    simp only [takeNumber, htake, rest_advance hrest, hends, String.ofList_toList, hvalue,
      Bool.false_eq_true, if_false]
  refine ⟨_, _, ?_, lexeme_token file cursor .number s, rest_advance hrest⟩
  rw [takeToken, hrest, htext, List.cons_append, symbol?_eq_none hmarks, ← htext]
  simp only [hnul, hquote, hdigit, if_false, if_true, hnumber]
  rfl

theorem takes_string (file : String) {content : String} (hcontent : IsLiteral content)
    (hrest : cursor.rest = '"' :: content.toList ++ '"' :: tail) :
    cursor.Takes file ⟨.string, content⟩ tail := by
  have hmarks : '"' ∉ marks := by decide
  have hnul : '"' ≠ '\x00' := by decide
  have hliteral : cursor.literal = pure (content.toList, tail) := by
    rw [literal, hrest]
    exact literalFrom_eq_ok_iff.mpr ⟨hcontent.shaped, rfl⟩
  obtain ⟨value, hdecode⟩ := hcontent.decodes
  have hinner : (cursor.advance ['"']).rest = content.toList ++ ['"'] ++ tail := by
    refine rest_advance (hrest.trans ?_)
    simp
  refine ⟨_, _, ?_, lexeme_token file (cursor.advance ['"']) .string content, rest_advance hinner⟩
  rw [takeToken, hrest, List.cons_append, symbol?_eq_none hmarks]
  simp only [hnul, if_false, if_true, takeLiteral, hliteral, pure_bind, hdecode]
  rfl

/-- A legible lexeme is read up to the space behind it. -/
theorem takes_of_legible (file : String) {l : Lexeme} (hl : l.Legible)
    (hrest : cursor.rest = l.spelling.toList ++ tail) (htail : Spaced tail) :
    cursor.Takes file l tail := by
  cases hl with
  | symbol hs => exact takes_symbol file hs hrest htail
  | word hs => exact takes_word file hs hrest htail
  | number hs => exact takes_number file hs hrest htail
  | string hcontent =>
    refine takes_string file hcontent (hrest.trans ?_)
    simp [Lexeme.spelling]

/-- The spelling of a legible lexeme begins neither with a blank nor with a comment. -/
theorem exists_cons_of_legible {l : Lexeme} (hl : l.Legible) :
    ∃ c cs, l.spelling.toList = c :: cs ∧ c ∉ blanks ∧ (c = '/' → cs = []) := by
  cases hl with
  | symbol hs =>
    rcases cases_of_isSymbolText hs with ⟨a, htext, hsymbol⟩ | ⟨a, b, htext, hdouble⟩
    · exact ⟨a, [], htext, not_mem_of_class rfl hsymbol, fun _ => rfl⟩
    · refine ⟨a, [b], htext, ?_, ?_⟩
      · have hclass : blanks.any (isDoubleSymbol · b) = false := by simp [blanks, isDoubleSymbol]
        exact not_mem_of_class hclass hdouble
      · rintro rfl
        cases hdouble
  | word hs =>
    obtain ⟨c, cs, htext, hstart, -⟩ := exists_cons_of_isWord hs
    refine ⟨c, cs, htext, not_mem_of_class rfl hstart, ?_⟩
    rintro rfl
    cases hstart
  | number hs =>
    obtain ⟨c, cs, htext, hdigit⟩ := exists_cons_of_isNumeral hs
    refine ⟨c, cs, htext, not_mem_of_class rfl hdigit, ?_⟩
    rintro rfl
    cases hdigit
  | @string content _ =>
    exact ⟨'"', content.toList ++ ['"'], by simp [Lexeme.spelling], by decide,
      fun h => absurd h (by decide)⟩

/-! ### All tokens -/

/-- Texts that are spread. In front of the first stands `gap`, and in front of each of the others a
space and, as long as there are any, one of the fillers. -/
def spread (gap : List Char) : (fillers : List (List Char)) → List String → List Char
  | _, [] => []
  | fillers, text :: texts =>
    gap ++ text.toList ++ spread (' ' :: fillers.headD []) fillers.tail texts

theorem spaced_spread (gap : List Char) (fillers : List (List Char)) (texts : List String) :
    Spaced (spread (' ' :: gap) fillers texts) := by
  cases texts with
  | nil => exact .inl rfl
  | cons text texts => exact .inr ⟨_, rfl⟩

/-- Without fillers there are single spaces. -/
theorem toList_intercalate_space (texts : List String) :
    (" ".intercalate texts).toList = spread [] [] texts := by
  rw [String.toList_intercalate]
  cases texts with
  | nil => rfl
  | cons text texts =>
    induction texts generalizing text with
    | nil => simp [spread]
    | cons next texts ih =>
      have hrest := ih next
      simp only [List.map_cons] at hrest
      simp only [List.map_cons, List.intercalate_cons_cons, hrest, spread, List.nil_append,
        List.append_assoc]
      rfl

theorem length_le_length_spread {ls : List Lexeme} (hls : ∀ l ∈ ls, l.Legible) (gap : List Char)
    (fillers : List (List Char)) :
    ls.length ≤ (spread gap fillers (ls.map Lexeme.spelling)).length := by
  induction ls generalizing gap fillers with
  | nil => exact Nat.zero_le _
  | cons l ls ih =>
    have hrest := ih (fun k hk => hls k (List.mem_cons_of_mem _ hk)) (' ' :: fillers.headD [])
      fillers.tail
    obtain ⟨c, cs, htext, -⟩ := exists_cons_of_legible (hls l List.mem_cons_self)
    simp only [List.map_cons, spread, htext, List.length_append, List.length_cons] at hrest ⊢
    omega

/-- The next lexeme is read from behind a filler. -/
theorem next_spread (file : String) {gap : List Char} (hgap : Filler gap) {l : Lexeme}
    (hl : l.Legible) {fillers : List (List Char)} {ls : List Lexeme}
    (hrest : cursor.rest = spread gap fillers ((l :: ls).map Lexeme.spelling)) :
    ∃ token behind, cursor.next file = .ok (token, behind) ∧ token.lexeme = l ∧
      behind.rest = spread (' ' :: fillers.headD []) fillers.tail (ls.map Lexeme.spelling) := by
  have hspaced := spaced_spread (fillers.headD []) fillers.tail (ls.map Lexeme.spelling)
  obtain ⟨c, cs, htext, hblank, hslash⟩ := exists_cons_of_legible hl
  rw [List.map_cons, spread, List.append_assoc] at hrest
  generalize spread (' ' :: fillers.headD []) fillers.tail (ls.map Lexeme.spelling) = tail
    at hrest hspaced ⊢
  have hsettled : Settled (l.spelling.toList ++ tail) := by
    rw [htext]
    refine settled_cons hblank fun h => ?_
    rw [hslash h]
    exact hspaced
  obtain ⟨settled, hskip, htaken, -⟩ := hgap.skip hrest hsettled
  obtain ⟨token, behind, htake, hlexeme, hbehind⟩ := takes_of_legible file hl htaken hspaced
  refine ⟨token, behind, ?_, hlexeme, hbehind⟩
  rw [next, hskip]
  exact htake

/-- The text ends with the end token. -/
theorem next_nil (file : String) (hrest : cursor.rest = []) :
    ∃ token behind, cursor.next file = .ok (token, behind) ∧ token.lexeme = .finish := by
  have hskip : cursor.skip = .ok { cursor with rest := [] } := by
    rw [skip, hrest]
    rfl
  have hnext : cursor.next file = .ok (take file { cursor with rest := [] } .finish []) := by
    rw [next, hskip]
    rfl
  exact ⟨_, _, hnext, lexeme_token file { cursor with rest := [] } .finish ""⟩

/-- A space and the next filler make up a filler. -/
theorem Filler.next {fillers : List (List Char)} (hfillers : ∀ filler ∈ fillers, Filler filler) :
    Filler (' ' :: fillers.headD []) := by
  refine .cons .space ?_
  cases fillers with
  | nil => exact .nil
  | cons filler fillers => exact hfillers _ List.mem_cons_self

theorem tokens_of_spread (file : String) {ls : List Lexeme} (hls : ∀ l ∈ ls, l.Legible)
    {gap : List Char} (hgap : Filler gap) {fillers : List (List Char)}
    (hfillers : ∀ filler ∈ fillers, Filler filler)
    (hrest : cursor.rest = spread gap fillers (ls.map Lexeme.spelling))
    {fuel : Nat} (hfuel : ls.length < fuel) :
    (tokens file fuel cursor).1.map Token.lexeme = ls ++ [.finish] ∧
      (tokens file fuel cursor).2 = none := by
  induction ls generalizing cursor gap fillers fuel with
  | nil =>
    obtain ⟨fuel, rfl⟩ := Nat.exists_eq_add_one_of_ne_zero (Nat.ne_of_gt hfuel)
    rw [List.map_nil, spread] at hrest
    obtain ⟨token, behind, hnext, hlexeme⟩ := next_nil file hrest
    have hkind : token.kind = .finish := congrArg Lexeme.kind hlexeme
    simp only [tokens, hnext, hkind, if_true]
    exact ⟨by rw [List.map_singleton, hlexeme]; rfl, trivial⟩
  | cons l ls ih =>
    obtain ⟨fuel, rfl⟩ := Nat.exists_eq_add_one_of_ne_zero (Nat.ne_of_gt (Nat.zero_lt_of_lt hfuel))
    have hl := hls l List.mem_cons_self
    obtain ⟨token, behind, hnext, hlexeme, hbehind⟩ := next_spread file hgap hl hrest
    have hkind : token.kind ≠ .finish := by
      have hkind : token.kind = l.kind := congrArg Lexeme.kind hlexeme
      rw [hkind]
      exact hl.kind_ne
    have hrest := ih (fun k hk => hls k (List.mem_cons_of_mem _ hk)) (.next hfillers)
      (fun filler hfiller => hfillers filler (List.mem_of_mem_tail hfiller)) hbehind
      (Nat.lt_of_succ_lt_succ hfuel)
    simp only [tokens, hnext, hkind, if_false]
    exact ⟨by rw [List.map_cons, hlexeme, hrest.1]; rfl, hrest.2⟩

end Cursor

/-- **Legible lexemes are read back**, with a space and any filler between them. -/
theorem Source.tokens_spread (file : String) {ls : List Lexeme} (hls : ∀ l ∈ ls, l.Legible)
    {fillers : List (List Char)} (hfillers : ∀ filler ∈ fillers, Cursor.Filler filler) :
    ∃ tokens, Source.tokens
        ⟨file, String.ofList (Cursor.spread [] fillers (ls.map Lexeme.spelling))⟩ = (tokens, none) ∧
      tokens.map Token.lexeme = ls ++ [.finish] := by
  let source : Source := ⟨file, String.ofList (Cursor.spread [] fillers (ls.map Lexeme.spelling))⟩
  have hrest : (Cursor.ofSource source).rest =
      Cursor.spread [] fillers (ls.map Lexeme.spelling) := String.toList_ofList
  have hlength := Cursor.length_le_length_spread hls [] fillers
  obtain ⟨htokens, hfault⟩ := Cursor.tokens_of_spread file hls .nil hfillers hrest
    (Nat.lt_succ_of_le hlength)
  refine ⟨_, Prod.ext rfl ?_, ?_⟩
  · rw [Source.tokens, hrest]
    exact hfault
  · rw [Source.tokens, hrest]
    exact htokens

/-- **Legible lexemes are read back**, with single spaces between them. -/
theorem Source.tokens_spelled (file : String) {ls : List Lexeme} (hls : ∀ l ∈ ls, l.Legible) :
    ∃ tokens, Source.tokens ⟨file, " ".intercalate (ls.map Lexeme.spelling)⟩ = (tokens, none) ∧
      tokens.map Token.lexeme = ls ++ [.finish] := by
  have hspread := Source.tokens_spread file hls (List.forall_mem_nil Cursor.Filler)
  rwa [← Cursor.toList_intercalate_space, String.ofList_toList] at hspread

end SchemaProjection
