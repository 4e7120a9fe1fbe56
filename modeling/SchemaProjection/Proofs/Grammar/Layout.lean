import SchemaProjection.Proofs.Grammar.Coverage
import SchemaProjection.Proofs.Grammar.Positions

/-!
# Layout does not matter

Where one token ends is decided by the token and not by what stands behind it. So the tokens of a
source, written one behind the other, are read back as the same tokens, however they are laid out:
with single spaces between them, or with spaces that are followed by fillers
(`Source.tokens_laid_out`).

Not even the space could be left out, since two names would become one.
-/

namespace SchemaProjection

/-- The texts of the tokens as they stand in the source, literals with their quotes. -/
def Source.extents (source : Source) : List String :=
  (Token.proper source.tokens.1).map fun token => source.between token.first token.last

theorem Source.extents_eq (source : Source) :
    source.extents =
      ((Token.proper source.tokens.1).map Token.lexeme).map Lexeme.spelling := by
  rw [Source.extents, List.map_map]
  exact List.map_congr_left fun token htoken =>
    (source.split_tokens.located rfl token htoken).extent_eq

/-- **Layout does not matter.** If a source splits into tokens without fault, then its tokens laid
out anew, with single spaces or with a space and any filler between them, split without fault into
tokens of the same kinds and texts, and an end token. -/
theorem Source.tokens_laid_out {source : Source} (hfault : source.tokens.2 = none) (file : String) :
    (∃ finish, source.tokens.1 = Token.proper source.tokens.1 ++ [finish] ∧
      finish.lexeme = .finish) ∧
    (∃ tokens, Source.tokens ⟨file, " ".intercalate source.extents⟩ = (tokens, none) ∧
      tokens.map Token.lexeme = source.tokens.1.map Token.lexeme) ∧
    ∀ fillers : List (List Char), (∀ filler ∈ fillers, Cursor.Filler filler) →
      ∃ tokens, Source.tokens ⟨file, String.ofList (Cursor.spread [] fillers source.extents)⟩ =
          (tokens, none) ∧
        tokens.map Token.lexeme = source.tokens.1.map Token.lexeme := by
  have hsplit := source.split_tokens
  rw [hfault] at hsplit
  obtain ⟨finish, htokens, hfinish, -⟩ := hsplit.covered
  have hlexemes : source.tokens.1.map Token.lexeme =
      (Token.proper source.tokens.1).map Token.lexeme ++ [.finish] := by
    rw [← hfinish, ← List.map_singleton, ← List.map_append, ← htokens]
  have hlegible : ∀ l ∈ (Token.proper source.tokens.1).map Token.lexeme, l.Legible :=
    List.forall_mem_map.mpr hsplit.legible
  rw [source.extents_eq, hlexemes]
  exact ⟨⟨finish, htokens, hfinish⟩, Source.tokens_spelled file hlegible,
    fun fillers hfillers => Source.tokens_spread file hlegible hfillers⟩

/-- A literal that holds a comment in front of one that is none, and a number behind it. -/
theorem Source.tokens_laid_out_comments :
    let source : Source := ⟨"t", "a<=\"b//\"//c\n#1.5"⟩
    source.tokens.2 = none ∧ source.extents = ["a", "<=", "\"b//\"", "#", "1.5"] ∧
      ∃ tokens, Source.tokens ⟨"t", "a //\n<= \t\"b//\" # 1.5"⟩ = (tokens, none) ∧
        tokens.map Token.lexeme = source.tokens.1.map Token.lexeme := by
  intro source
  have hfault : source.tokens.2 = none := by decide +kernel
  have hextents : source.extents = ["a", "<=", "\"b//\"", "#", "1.5"] := by decide +kernel
  have hcomment : Cursor.Separator ('/' :: '/' :: ([] ++ ['\n'])) :=
    .lineComment (by decide) (by decide)
  have hfillers : ∀ filler ∈ [['/', '/', '\n'], ['\t']], Cursor.Filler filler :=
    List.forall_mem_cons.mpr ⟨.cons hcomment .nil, List.forall_mem_singleton.mpr (.cons .tab .nil)⟩
  refine ⟨hfault, hextents, ?_⟩
  have hlaid := (Source.tokens_laid_out hfault "t").2.2 _ hfillers
  rw [hextents] at hlaid
  exact hlaid

end SchemaProjection
