import SchemaProjection.Proofs.Grammar.Expressions
import SchemaProjection.Proofs.Grammar.Scanning

/-!
# String literals denote every string

A spelling of a string, between quotes and followed by a space, is one token whose span is just the
spelling, and what the expression denotes is the string (`Source.read_literal`). The spelling is
scanned for its end and decoded twice, once to check the literal when its token is made, and once
more when the token is read as an expression; that all three agree is why the spelling does not
matter.
-/

namespace SchemaProjection

/-! ### The token -/

namespace Cursor

variable {cursor : Cursor} {content : String}

/-- A literal with a space behind it at the end of a text. -/
theorem next_literal (file : String) (hcontent : IsLiteral content)
    (hrest : cursor.rest = '"' :: content.toList ++ ['"', ' ']) :
    ∃ behind, cursor.next file = .ok (⟨.string, content, ⟨file, cursor.line, cursor.col + 1,
        cursor.offset + 1, cursor.offset + 1 + byteSize content.toList⟩⟩, behind) ∧
      behind.rest = [' '] := by
  have hsettled : Settled cursor.rest := by
    rw [hrest]
    exact settled_cons (by decide) nofun
  have hskip : cursor.skip = pure cursor := hsettled _ _ _
  obtain ⟨token, behind, htake, hlexeme, hbehind⟩ := takes_string file hcontent hrest
  have hkind : token.kind = .string := congrArg Lexeme.kind hlexeme
  have htext : token.text = content := congrArg Lexeme.text hlexeme
  have hspan : token.span = ⟨file, cursor.line, cursor.col + 1, cursor.offset + 1,
      cursor.offset + 1 + byteSize content.toList⟩ := by
    rcases takeToken_cases htake with ⟨-, rfl⟩ | ⟨hcarries, -⟩
    · cases hkind
    · rw [hcarries.span_eq, Token.margin, if_pos hkind, htext]
  refine ⟨behind, ?_, hbehind⟩
  rw [next, hskip, pure_bind, htake, ← hspan, ← hkind, ← htext]

theorem next_space (file : String) (hrest : cursor.rest = [' ']) :
    ∃ finish behind, cursor.next file = .ok (finish, behind) ∧ finish.lexeme = .finish := by
  have hskip : cursor.skip = pure ⟨[], cursor.offset + 1, cursor.line, cursor.col + 1⟩ := by
    rw [skip, hrest]
    rfl
  rw [next, hskip, pure_bind]
  exact ⟨_, _, rfl, rfl⟩

end Cursor

/-- The tokens of a literal with a space behind it. -/
theorem Source.tokens_literal {source : Source} {content : String} (hcontent : IsLiteral content)
    (htext : source.text.toList = '"' :: content.toList ++ ['"', ' ']) :
    ∃ finish, finish.lexeme = .finish ∧
      source.tokens = ([⟨.string, content, ⟨source.file, 1, 2, 1,
        1 + Cursor.byteSize content.toList⟩⟩, finish], none) := by
  have hrest : (Cursor.ofSource source).rest = '"' :: content.toList ++ ['"', ' '] := htext
  obtain ⟨behind, hnext, hbehind⟩ := Cursor.next_literal source.file hcontent hrest
  obtain ⟨finish, _, hnext', hfinish⟩ := Cursor.next_space source.file hbehind
  have hkind : finish.kind = .finish := congrArg Lexeme.kind hfinish
  refine ⟨finish, hfinish, ?_⟩
  -- two rounds, and the text is longer than that
  rw [Source.tokens, hrest, List.cons_append, List.length_cons, Cursor.tokens, hnext]
  simp only [reduceCtorEq, if_false]
  rw [Cursor.tokens, hnext']
  simp only [hkind, if_true]
  rfl

/-! ### The expression -/

namespace Parse

variable {α β : Type} {a : α} {x : Parse α} {s s' : TokenStream}

theorem run_bind_of_ok (h : x.run s = .ok (a, s')) (f : α → Parse β) :
    (x >>= f).run s = (f a).run s' := by
  rw [StateT.run_bind, h]
  rfl

/-- A loop whose first round returns nothing. -/
theorem run_iterate_of_none {round : α → Parse (Option α)} (h : (round a).run s = .ok (none, s)) :
    (iterate round a).run s = .ok (a, s) :=
  loop_of_rounds (.refl a s) h (Nat.le_refl _)

end Parse

namespace Parsers

open Parse

variable {operand : Parse Expr} {e : Expr} {s s' : TokenStream}

/-- An operand behind which no operator stands. -/
theorem run_chains (h : operand.run s = .ok (e, s')) {levels : List (List (String × BinaryOp))}
    (hnone : ∀ ops ∈ levels, ops.lookup s'.current.label = none) :
    (chains levels operand).run s = .ok (e, s') := by
  induction levels with
  | nil => exact h
  | cons ops levels ih =>
    obtain ⟨hops, hlevels⟩ := List.forall_mem_cons.mp hnone
    have hdone : (binary? ops (chains levels operand) s.current.span.start e).run s' =
        .ok (none, s') := by
      rw [binary?, run_bind_of_ok rfl, hops]
      rfl
    rw [chains, List.foldr_cons, chain, run_bind_of_ok rfl]
    exact (run_bind_of_ok (ih hlevels) _).trans (run_iterate_of_none hdone)

/-- A literal behind which nothing stands. -/
theorem run_unary_literal (p : Parsers) (token finish : Token) (fault : Option LexicalFault)
    (n : Nat) {value rest : List Char} (hkind : token.kind = .string)
    (hfinish : finish.lexeme = .finish)
    (hdecode : Json.Literal.decode (token.text.toList ++ ['"']) = .ok (value, rest)) :
    p.unary.run ⟨token, [finish], fault, n⟩ =
      .ok (.literal token.span (.string (String.ofList value)),
        ⟨finish, [], fault, token.span.stop⟩) := by
  have hlabel : token.label = "" := if_pos hkind
  have hlabel' : finish.label = "" := congrArg Lexeme.label hfinish
  have hatom : atom.run ⟨token, [finish], fault, n⟩ =
      .ok (.literal token.span (.string (String.ofList value)),
        ⟨finish, [], fault, token.span.stop⟩) := by
    rw [atom, run_bind_of_ok rfl, hkind]
    simp only [hdecode]
    rfl
  have hsuffix : (p.suffix? token.span.start
      (.literal token.span (.string (String.ofList value)))).run
        ⟨finish, [], fault, token.span.stop⟩ =
      .ok (none, ⟨finish, [], fault, token.span.stop⟩) := by
    have hnone : finish.label ≠ "." ∧ finish.label ≠ "(" ∧ finish.label ≠ "#" := by
      rw [hlabel']
      decide
    rw [suffix?, run_bind_of_ok rfl]
    simp only [hnone, if_false]
    rfl
  have hunary : unaryOp? token.label = none := by
    rw [hlabel]
    rfl
  have hprimary : p.primary token = atom := primary_eq_atom (by rw [hlabel]; decide)
  rw [unary, run_bind_of_ok rfl, hunary]
  rw [reference_eq, run_bind_of_ok rfl, hprimary, run_bind_of_ok hatom]
  exact run_iterate_of_none hsuffix

end Parsers

/-- **String literals denote every string.** Whatever the spelling of a string, between quotes and
with a space behind it, it is one token, whose span is the spelling; and the expression that is read
is the string. -/
theorem Source.read_literal (file : String) {value spelling : List Char}
    (h : Json.Literal.Spelling value spelling) :
    let source : Source := ⟨file, String.ofList ('"' :: spelling ++ ['"', ' '])⟩
    let span : Span := ⟨file, 1, 2, 1, 1 + Cursor.byteSize spelling⟩
    ∃ finish, finish.lexeme = .finish ∧
      source.tokens = ([⟨.string, String.ofList spelling, span⟩, finish], none) ∧
      source.read Parsers.expression =
        .ok (.literal span (.string (String.ofList value)), ⟨finish, [], none, span.stop⟩) := by
  intro source span
  have hspelling : (String.ofList spelling).toList = spelling := String.toList_ofList
  have htext : source.text.toList = '"' :: (String.ofList spelling).toList ++ ['"', ' '] := by
    rw [hspelling]
    exact String.toList_ofList
  have hliteral : IsLiteral (String.ofList spelling) := .of_spelling (by rwa [hspelling])
  obtain ⟨finish, hfinish, htokens⟩ := Source.tokens_literal hliteral htext
  rw [hspelling] at htokens
  refine ⟨finish, hfinish, htokens, ?_⟩
  have hdecode :
      Json.Literal.decode ((String.ofList spelling).toList ++ ['"']) = .ok (value, []) := by
    rw [hspelling]
    exact Json.Literal.decode_of_spelling h
  have hunary := Parsers.run_unary_literal (parsers 3) ⟨.string, String.ofList spelling, span⟩
    finish none 0 rfl hfinish hdecode
  have hlabel : finish.label = "" := congrArg Lexeme.label hfinish
  have hnone : ∀ ops ∈ Parsers.binaryLevels, ops.lookup finish.label = none := by
    rw [hlabel]
    decide
  rw [Source.read, htokens]
  exact Parsers.run_chains hunary hnone

/-- A character that stands for itself, a short escape, a numeric escape and one for each of two
surrogates. -/
theorem Source.read_literal_escapes :
    let spelling := ['ä', '\\', '/', '\\', 'u', '0', '0', '4', 'B', '\\', 'u', 'd', '8', '3', 'D',
      '\\', 'u', 'D', 'e', '0', '0']
    Json.Literal.Spelling ['ä', '/', 'K', '😀'] spelling ∧
      ∃ stream, Source.read ⟨"t", "\"ä\\/\\u004B\\ud83D\\uDe00\" "⟩ Parsers.expression =
        .ok (.literal ⟨"t", 1, 2, 1, 23⟩ (.string "ä/K😀"), stream) := by
  intro spelling
  have hunit : Json.Literal.Hex4 'K'.toNat ['0', '0', '4', 'B'] :=
    .mk (k := 0) (l := 0) (m := 4) (n := 11) ⟨by decide, by decide⟩ ⟨by decide, by decide⟩
      ⟨by decide, by decide⟩ ⟨by decide, by decide⟩
  have hleading : Json.Literal.Hex4 (0xD800 + ('😀'.toNat - 0x10000) / 0x400) ['d', '8', '3', 'D'] :=
    .mk (k := 13) (l := 8) (m := 3) (n := 13) ⟨by decide, by decide⟩ ⟨by decide, by decide⟩
      ⟨by decide, by decide⟩ ⟨by decide, by decide⟩
  have htrailing :
      Json.Literal.Hex4 (0xDC00 + ('😀'.toNat - 0x10000) % 0x400) ['D', 'e', '0', '0'] :=
    .mk (k := 13) (l := 14) (m := 0) (n := 0) ⟨by decide, by decide⟩ ⟨by decide, by decide⟩
      ⟨by decide, by decide⟩ ⟨by decide, by decide⟩
  have hspelling : Json.Literal.Spelling ['ä', '/', 'K', '😀'] spelling :=
    .cons (.plain (by decide) (by decide) (by decide)) (.cons (.short (by decide))
      (.cons (.unit hunit) (.cons (.pair (by decide) hleading htrailing) .nil)))
  have htext : String.ofList ('"' :: spelling ++ ['"', ' ']) =
      "\"ä\\/\\u004B\\ud83D\\uDe00\" " := by decide +kernel
  have hvalue : String.ofList ['ä', '/', 'K', '😀'] = "ä/K😀" := by decide +kernel
  have hsize : 1 + Cursor.byteSize spelling = 23 := by decide +kernel
  obtain ⟨finish, -, -, hread⟩ := Source.read_literal "t" hspelling
  rw [htext, hvalue, hsize] at hread
  exact ⟨hspelling, _, hread⟩

end SchemaProjection
