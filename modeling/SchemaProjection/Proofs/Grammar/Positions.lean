import Mathlib.Data.List.Chain
import SchemaProjection.Proofs.Grammar.Scanning

/-!
# Tokens stand where their spans say

Spans count bytes, and the tokens of a source are found again in its text by their spans: a span
begins and ends between two characters, and what is between is the text of the token
(`Token.Located`). The lines and columns that go with them are those that a reader of the text would
count, as long as he counts one column for each byte.

The **extent** of a token is its span, and for a string literal also the quotes around it. Extents
are disjoint and in order, and only fillers are between them (`Source.tokens_located`).
-/

namespace SchemaProjection

/-! ### Tokens by their bytes -/

namespace Token

/-- Where the extent of a token begins. -/
def first (token : Token) : Nat := token.span.start - token.margin

/-- Where the extent of a token ends. -/
def last (token : Token) : Nat := token.span.stop + token.margin

/-- **A token that is found in a source** at its span. -/
structure Located (source : Source) (token : Token) : Prop where
  start_le : token.span.start ≤ token.span.stop
  margin_le : token.margin ≤ token.span.start
  last_le : token.last ≤ source.text.utf8ByteSize
  start_valid : String.Pos.Raw.IsValid source.text ⟨token.span.start⟩
  stop_valid : String.Pos.Raw.IsValid source.text ⟨token.span.stop⟩
  text_eq : source.between token.span.start token.span.stop = token.text
  extent_eq : source.between token.first token.last = token.lexeme.spelling
  line_eq : token.span.line = (source.between 0 token.span.start).toList.count '\n' + 1
  /-- Columns are promised only behind plain characters. -/
  col_eq : (∀ c ∈ Cursor.lastLine (source.between 0 token.span.start).toList, Cursor.isPlain c) →
    token.span.col =
      Cursor.byteSize (Cursor.lastLine (source.between 0 token.span.start).toList) + 1

end Token

section Found

variable {source : Source} {token : Token} {before text rest : List Char}

theorem Source.between_eq {l m r : List Char} (h : source.text.toList = l ++ m ++ r) :
    source.between (Cursor.byteSize l) (Cursor.byteSize l + Cursor.byteSize m) =
      String.ofList m := by
  have htext : source.text = String.ofList (l ++ m ++ r) := by rw [← h, String.ofList_toList]
  rw [Source.between, htext, Cursor.byteSize_eq, Cursor.byteSize_eq, String.extract_of_valid]

theorem Source.isValid_byteSize {l r : List Char} (h : source.text.toList = l ++ r) :
    String.Pos.Raw.IsValid source.text ⟨Cursor.byteSize l⟩ := by
  have htext : source.text = String.ofList l ++ String.ofList r := by
    rw [← String.ofList_append, ← h, String.ofList_toList]
  refine String.Pos.Raw.isValid_iff_exists_append.mpr ⟨_, _, htext, ?_⟩
  rw [String.rawEndPos_ofList, Cursor.byteSize_eq]

/-- The quote in front of a literal and behind it, or nothing. -/
def Token.quote (token : Token) : List Char := if token.kind = .string then ['"'] else []

theorem Token.written_eq (token : Token) :
    token.written = token.quote ++ token.text.toList ++ token.quote := by
  by_cases hkind : token.kind = .string <;>
    simp [Token.written, Token.lexeme, Lexeme.spelling, Token.quote, hkind]

theorem Token.byteSize_quote (token : Token) : Cursor.byteSize token.quote = token.margin := by
  rw [Token.quote, Token.margin]
  split_ifs <;> rfl

theorem Token.not_mem_quote (token : Token) : '\n' ∉ token.quote := by
  rw [Token.quote]
  split_ifs <;> decide

/-! ### One token -/

namespace Token.Stands

theorem first_eq (h : token.Stands before) : token.first = Cursor.byteSize before := by
  rw [first, h.start_eq, Nat.add_sub_cancel]

theorem last_eq (h : token.Stands before) :
    token.last = Cursor.byteSize before + Cursor.byteSize token.written := by
  rw [last, h.stop_eq, h.start_eq, written_eq, Cursor.byteSize_append, Cursor.byteSize_append,
    byteSize_quote]
  omega

/-- **A token that stands in the text of a source is found there.** -/
theorem located (h : token.Stands before)
    (htext : source.text.toList = before ++ token.written ++ rest) : token.Located source := by
  -- the span leaves out the quotes, and so the text is cut within them
  have hparts : source.text.toList =
      before ++ token.quote ++ token.text.toList ++ (token.quote ++ rest) := by
    rw [htext, written_eq]
    simp only [List.append_assoc]
  have hstart : token.span.start = Cursor.byteSize (before ++ token.quote) := by
    rw [h.start_eq, Cursor.byteSize_append, byteSize_quote]
  have hstop : token.span.stop =
      Cursor.byteSize (before ++ token.quote ++ token.text.toList) := by
    rw [h.stop_eq, hstart, Cursor.byteSize_append _ token.text.toList]
  have hbefore : (source.between 0 token.span.start).toList = before ++ token.quote := by
    have hbetween := Source.between_eq (l := []) (m := before ++ token.quote)
      (hparts.trans (List.append_assoc _ _ _))
    rw [Cursor.byteSize_nil, Nat.zero_add, ← hstart] at hbetween
    rw [hbetween, String.toList_ofList]
  refine ⟨?_, ?_, ?_, ?_, ?_, ?_, ?_, ?_, fun hplain => ?_⟩
  · rw [h.stop_eq]
    exact Nat.le_add_right _ _
  · rw [h.start_eq]
    exact Nat.le_add_left _ _
  · have hsize : source.text.utf8ByteSize = Cursor.byteSize source.text.toList := by
      rw [Cursor.byteSize_eq, ← String.utf8ByteSize_ofList, String.ofList_toList]
    rw [h.last_eq, hsize, htext, Cursor.byteSize_append, Cursor.byteSize_append]
    exact Nat.le_add_right _ _
  · rw [hstart]
    exact Source.isValid_byteSize (hparts.trans (List.append_assoc _ _ _))
  · rw [hstop]
    exact Source.isValid_byteSize hparts
  · rw [h.stop_eq, hstart, Source.between_eq hparts, String.ofList_toList]
  · rw [h.first_eq, h.last_eq, Source.between_eq htext, written, String.ofList_toList]
  · rw [hbefore, List.count_append, List.count_eq_zero.mpr token.not_mem_quote, h.line_eq]
  · rw [hbefore, Cursor.lastLine_append token.not_mem_quote] at hplain ⊢
    rw [h.col_eq (List.forall_mem_append.mp hplain).1, Cursor.byteSize_append, byteSize_quote]
    omega

end Token.Stands

/-! ### All tokens -/

namespace Cursor.Split

variable {tokens : List Token} {fault : Option LexicalFault}

theorem located (h : Split before text tokens fault) (htext : source.text.toList = before ++ text) :
    ∀ token ∈ Token.proper tokens, token.Located source := by
  induction h with
  | fault => exact List.forall_mem_nil _
  | finish _ _ hlexeme =>
    rw [Token.proper_finish hlexeme]
    exact List.forall_mem_nil _
  | @token before gap rest token tokens fault hgap hstands _ ih =>
    have hparts : source.text.toList = before ++ gap ++ token.written ++ rest := by
      rw [htext]
      simp only [List.append_assoc]
    rw [Token.proper_cons hstands.legible]
    exact List.forall_mem_cons.mpr ⟨hstands.located hparts, ih hparts⟩

/-- The tokens that are split off a text stand behind what is before it. -/
theorem byteSize_le_first (h : Split before text tokens fault) :
    ∀ token ∈ Token.proper tokens, byteSize before ≤ token.first := by
  induction h with
  | fault => exact List.forall_mem_nil _
  | finish _ _ hlexeme =>
    rw [Token.proper_finish hlexeme]
    exact List.forall_mem_nil _
  | @token before gap rest token tokens fault hgap hstands _ ih =>
    rw [Token.proper_cons hstands.legible]
    refine List.forall_mem_cons.mpr ⟨?_, fun later hlater => ?_⟩
    · rw [hstands.first_eq, byteSize_append]
      exact Nat.le_add_right _ _
    · have hle := ih later hlater
      simp only [byteSize_append] at hle
      omega

theorem pairwise_last_le_first (h : Split before text tokens fault) :
    (Token.proper tokens).Pairwise fun a b => a.last ≤ b.first := by
  induction h with
  | fault => exact .nil
  | finish _ _ hlexeme =>
    rw [Token.proper_finish hlexeme]
    exact .nil
  | token hgap hstands hrest ih =>
    rw [Token.proper_cons hstands.legible]
    refine .cons (fun later hlater => ?_) ih
    rw [hstands.last_eq, ← byteSize_append]
    exact hrest.byteSize_le_first later hlater

/-- In front of the first token there is a filler. -/
theorem filler_head (h : Split before text tokens fault)
    (htext : source.text.toList = before ++ text) :
    ∀ token ∈ (Token.proper tokens).head?,
      Filler (source.between (byteSize before) token.first).toList := by
  cases h with
  | fault => exact nofun
  | finish _ _ hlexeme =>
    rw [Token.proper_finish hlexeme]
    exact nofun
  | @token _ gap rest token tokens _ hgap hstands hrest =>
    rw [Token.proper_cons hstands.legible]
    rintro _ ⟨⟩
    have hparts : source.text.toList = before ++ gap ++ (token.written ++ rest) := by
      rw [htext, List.append_assoc]
    rwa [hstands.first_eq, byteSize_append, Source.between_eq hparts, String.toList_ofList]

theorem isChain_filler (h : Split before text tokens fault)
    (htext : source.text.toList = before ++ text) :
    (Token.proper tokens).IsChain fun a b => Filler (source.between a.last b.first).toList := by
  induction h with
  | fault => exact .nil
  | finish _ _ hlexeme =>
    rw [Token.proper_finish hlexeme]
    exact .nil
  | @token before gap rest token tokens fault hgap hstands hrest ih =>
    have hparts : source.text.toList = before ++ gap ++ token.written ++ rest := by
      rw [htext]
      simp only [List.append_assoc]
    rw [Token.proper_cons hstands.legible]
    refine List.isChain_cons.mpr ⟨fun next hnext => ?_, ih hparts⟩
    rw [hstands.last_eq, ← byteSize_append]
    exact hrest.filler_head hparts next hnext

end Cursor.Split

end Found

/-- **Tokens stand where their spans say.** In every source, the tokens up to the end token or the
first fault are found at their spans; their extents are disjoint and in order; and between two
consecutive extents, as in front of the first, there is nothing but a filler. -/
theorem Source.tokens_located (source : Source) :
    (∀ token ∈ Token.proper source.tokens.1, token.Located source) ∧
      ((Token.proper source.tokens.1).Pairwise fun a b => a.last ≤ b.first) ∧
      ((Token.proper source.tokens.1).IsChain fun a b =>
        Cursor.Filler (source.between a.last b.first).toList) ∧
      ∀ token ∈ (Token.proper source.tokens.1).head?,
        Cursor.Filler (source.between 0 token.first).toList :=
  ⟨source.split_tokens.located rfl, source.split_tokens.pairwise_last_le_first,
    source.split_tokens.isChain_filler rfl, source.split_tokens.filler_head rfl⟩

/-- A literal behind a comment of two lines and a character of two bytes. -/
example : (Source.tokens ⟨"t", "a /*\n*/ \"ä\" b"⟩).1.map
    (fun token => (token.span.start, token.span.stop, token.span.line, token.span.col)) =
      [(0, 1, 1, 1), (9, 11, 2, 5), (13, 14, 2, 9), (14, 14, 2, 10)] := by
  decide +kernel

end SchemaProjection
