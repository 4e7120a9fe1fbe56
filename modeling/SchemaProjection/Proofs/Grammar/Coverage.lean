import SchemaProjection.Proofs.Grammar.Scanning

/-!
# What tokens cover

A text that splits without fault is covered by its tokens and the gaps between them (`Covered`), but
only up to its first NUL: wherever that stands between two tokens or in a comment up to the line
end, it is taken for the end of the text. There the end token stands (`Split.covered`), which is the
only one of its kind (`Split.eq_proper`).
-/

namespace SchemaProjection

namespace Cursor

variable {before text gap rest : List Char} {tokens : List Token} {fault : Option LexicalFault}

theorem Separator.not_mem (h : Separator gap) : '\x00' ∉ gap := by
  cases h with
  | space | tab | lineFeed | lineEnd => decide
  | lineComment _ hnul => simp [hnul]
  | blockComment _ hnul => simp [hnul]

theorem Filler.not_mem (h : Filler gap) : '\x00' ∉ gap := by
  induction h with
  | nil => exact List.not_mem_nil
  | cons hpiece _ ih => exact fun hmem => (List.mem_append.mp hmem).elim hpiece.not_mem ih

theorem Bounded.not_mem (h : Bounded gap rest) : '\x00' ∉ gap := by
  cases h with
  | filler hgap => exact hgap.not_mem
  | comment hgap _ hnul => simp [hgap.not_mem, hnul]

/-- A gap in front of the end of the text ends the text up to there. -/
theorem Bounded.nil (h : Bounded gap rest) : Bounded gap [] := by
  cases h with
  | filler hgap => exact .filler hgap fun _ _ _ => rfl
  | comment hgap hline hnul => exact .comment hgap hline hnul (.inl rfl)

theorem Split.legible (h : Split before text tokens fault) :
    ∀ token ∈ Token.proper tokens, token.lexeme.Legible := by
  induction h with
  | fault => exact List.forall_mem_nil _
  | finish _ _ hlexeme =>
    rw [Token.proper_finish hlexeme]
    exact List.forall_mem_nil _
  | token _ hstands _ ih =>
    rw [Token.proper_cons hstands.legible]
    exact List.forall_mem_cons.mpr ⟨hstands.legible, ih⟩

/-- **A text that consists of tokens**, with fillers in front of each, and a gap behind the last. -/
inductive Covered : List Char → List Token → Prop
  | nil {gap : List Char} : Bounded gap [] → Covered gap []
  | cons {gap text : List Char} {token : Token} {tokens : List Token} : Filler gap →
    Covered text tokens → Covered (gap ++ (token.written ++ text)) (token :: tokens)

theorem takeWhile_append_of_not_mem (h : '\x00' ∉ gap) (rest : List Char) :
    (gap ++ rest).takeWhile (· ≠ '\x00') = gap ++ rest.takeWhile (· ≠ '\x00') :=
  List.takeWhile_append_of_pos fun _ hc => decide_eq_true fun hnul => h (hnul ▸ hc)

theorem Ended.takeWhile_eq_nil (h : Ended rest) : rest.takeWhile (· ≠ '\x00') = [] := by
  rcases h with rfl | ⟨rest, rfl⟩
  · rfl
  · exact List.takeWhile_cons_of_neg (by decide)

/-- **A text that splits without fault is covered up to its first NUL**, and there stands the end
token. -/
theorem Split.covered (h : Split before text tokens none) :
    ∃ finish, tokens = Token.proper tokens ++ [finish] ∧ finish.lexeme = .finish ∧
      Covered (text.takeWhile (· ≠ '\x00')) (Token.proper tokens) ∧
      finish.span.start = byteSize (before ++ text.takeWhile (· ≠ '\x00')) := by
  generalize hfault : none = fault at h
  induction h with
  | fault => cases hfault
  | @finish before gap rest finish hgap hended hlexeme hstart =>
    rw [Token.proper_finish hlexeme, takeWhile_append_of_not_mem hgap.not_mem,
      hended.takeWhile_eq_nil, List.append_nil]
    exact ⟨finish, rfl, hlexeme, .nil hgap.nil, hstart⟩
  | @token before gap rest token tokens fault hgap hstands _ ih =>
    obtain ⟨finish, htokens, hlexeme, hcovered, hstart⟩ := ih hfault
    have hwritten : '\x00' ∉ token.written := hstands.legible.not_mem.2
    rw [Token.proper_cons hstands.legible, takeWhile_append_of_not_mem hgap.not_mem,
      takeWhile_append_of_not_mem hwritten]
    refine ⟨finish, ?_, hlexeme, .cons hgap hcovered, ?_⟩
    · rw [List.cons_append, ← htokens]
    · rw [hstart]
      simp only [List.append_assoc]

/-- There is no end token but the last. -/
theorem Split.eq_proper (h : Split before text tokens fault) {passed behind : List Token}
    {token : Token} (htokens : tokens = passed ++ token :: behind) (hkind : token.kind = .finish) :
    fault = none ∧ behind = [] ∧ passed = Token.proper tokens := by
  induction h generalizing passed with
  | fault => simp at htokens
  | finish _ _ hlexeme =>
    cases passed with
    | nil =>
      cases htokens
      exact ⟨rfl, rfl, (Token.proper_finish hlexeme).symm⟩
    | cons first passed => simp at htokens
  | token _ hstands _ ih =>
    rw [Token.proper_cons hstands.legible]
    cases passed with
    | nil =>
      cases htokens
      exact absurd hkind hstands.legible.kind_ne
    | cons first passed =>
      obtain ⟨hfirst, htokens⟩ := List.cons.inj htokens
      obtain ⟨hfault, hbehind, hpassed⟩ := ih htokens
      exact ⟨hfault, hbehind, by rw [← hpassed, hfirst]⟩

end Cursor

/-- The text up to its first NUL. -/
def Source.reach (source : Source) : List Char := source.text.toList.takeWhile (· ≠ '\x00')

end SchemaProjection
