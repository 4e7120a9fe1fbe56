import SchemaProjection.Proofs.Grammar.Positions

/-!
# Names and numbers stand apart

A token ends where its characters do: a name is not followed by a character of a name, and a number
not by a letter, a digit or an underscore (`Token.EndsBefore`). So between two names, or numbers,
that follow one another there is a filler that is not empty. There is one exception, as a name may
begin with a dollar sign, which is not among the characters that may not follow a number: `1$a` is
a number and a name (`Source.words_apart`).
-/

namespace SchemaProjection

namespace Token

/-- A name or a number. -/
def IsWord (token : Token) : Prop := token.kind = .name ∨ token.kind = .number

/-- **A token that ends before a text**, as far as it is a name or a number. -/
structure EndsBefore (token : Token) (tail : List Char) : Prop where
  name : token.kind = .name → ∀ c ∈ tail.head?, Cursor.isNameChar c = false
  number : token.kind = .number → ∀ c ∈ tail.head?, Cursor.continuesNumber c = false

end Token

namespace Cursor

variable {file : String} {cursor behind : Cursor} {token : Token} {before : List Char} {c : Char}

/-! ### Characters -/

/-- Of the characters of a name, a number may be followed by the dollar sign alone. -/
theorem isNameChar_iff : isNameChar c ↔ continuesNumber c ∨ c = '$' := by
  simp [isNameChar, continuesNumber]

theorem continuesNumber_of_isDigit (h : c.isDigit) : continuesNumber c := by
  simp [continuesNumber, Char.isAlphanum, h]

/-! ### Where a token ends -/

theorem endsBefore_token {kind : TokenKind} {text tail : List Char}
    (hkind : kind ≠ .name ∧ kind ≠ .number) : (cursor.token file kind text).EndsBefore tail :=
  ⟨fun hname => absurd hname hkind.1, fun hnumber => absurd hnumber hkind.2⟩

theorem endsBefore_of_takeLiteral (h : cursor.takeLiteral file = .ok (token, behind)) :
    token.EndsBefore behind.rest := by
  obtain ⟨_, _, _, _, _, rfl, _⟩ := takeLiteral_eq_ok h
  exact endsBefore_token (by decide)

theorem endsBefore_of_takeNumber (h : cursor.takeNumber file = .ok (token, behind)) :
    token.EndsBefore behind.rest := by
  rw [takeNumber] at h
  split_ifs at h with hends hvalue
  cases h
  refine ⟨fun hname => ?_, fun _ c hc => ?_⟩
  · cases hname
  · rw [Option.mem_def.mp hc, Option.any_some] at hends
    exact Bool.eq_false_iff.mpr hends

theorem rest_advance_takeWhile (cursor : Cursor) (p : Char → Bool) :
    (cursor.advance (cursor.rest.takeWhile p)).rest = cursor.rest.dropWhile p :=
  rest_advance List.takeWhile_append_dropWhile.symm

theorem endsBefore_of_takeToken (h : cursor.takeToken file = .ok (token, behind)) :
    token.EndsBefore behind.rest := by
  rw [takeToken] at h
  split at h
  · cases h
    exact endsBefore_token (by decide)
  · split at h
    · cases h
      exact endsBefore_token (by decide)
    · split_ifs at h
      · cases h
        exact endsBefore_token (by decide)
      · exact endsBefore_of_takeLiteral h
      · exact endsBefore_of_takeNumber h
      · cases h
        refine ⟨fun _ c hc => ?_, fun hnumber => ?_⟩
        · rw [rest_advance_takeWhile, ← List.find?_not_eq_head?_dropWhile] at hc
          simpa using List.find?_some hc
        · cases hnumber

theorem endsBefore_of_next (h : cursor.next file = .ok (token, behind)) :
    token.EndsBefore behind.rest := by
  obtain ⟨settled, -, htake⟩ := next_eq_ok h
  exact endsBefore_of_takeToken htake

/-- **All tokens end before what is behind them.** -/
theorem endsBefore_tokens (file : String) (fuel : Nat) (cursor : Cursor)
    (hcursor : Behind before cursor.offset cursor.line cursor.col) :
    ∀ token ∈ Token.proper (cursor.tokens file fuel).1, ∃ front tail,
      cursor.rest = front ++ tail ∧ token.last = byteSize (before ++ front) ∧
        token.EndsBefore tail := by
  induction fuel generalizing cursor before with
  | zero => exact List.forall_mem_nil _
  | succ fuel ih =>
    rw [tokens]
    cases hnext : cursor.next file with
    | error fault => exact List.forall_mem_nil _
    | ok taken =>
      obtain ⟨token, behind⟩ := taken
      rcases next_cases hcursor hnext with
        ⟨gap, rest, -, -, -, hlexeme, -⟩ | ⟨gap, hrest, -, hstands, hbehind⟩
      · have hkind : token.kind = .finish := congrArg Lexeme.kind hlexeme
        simp only [hkind, if_true]
        rw [Token.proper_finish hlexeme]
        exact List.forall_mem_nil _
      · have hkind : token.kind ≠ .finish := hstands.legible.kind_ne
        simp only [hkind, if_false]
        rw [Token.proper_cons hstands.legible]
        refine List.forall_mem_cons.mpr ⟨?_, fun later hlater => ?_⟩
        · refine ⟨gap ++ token.written, behind.rest, by rw [hrest, List.append_assoc], ?_,
            endsBefore_of_next hnext⟩
          rw [hstands.last_eq, ← byteSize_append, List.append_assoc]
        · obtain ⟨front, tail, hfront, hlast, hends⟩ := ih behind hbehind later hlater
          refine ⟨gap ++ (token.written ++ front), tail, ?_, ?_, hends⟩
          · rw [hrest, hfront]
            simp only [List.append_assoc]
          · rw [hlast]
            simp only [List.append_assoc]

/-! ### Where a token begins -/

/-- No filler begins like a name. -/
theorem Filler.head_not_nameChar {gap : List Char} (h : Filler gap) :
    ∀ c ∈ gap.head?, isNameChar c = false := by
  cases h with
  | nil => exact fun _ hc => absurd hc (Option.not_mem_none _)
  | cons hpiece _ => cases hpiece <;> rintro _ ⟨⟩ <;> rfl

/-- Names and numbers begin with a character that may stand in a name. -/
theorem exists_nameChar {l : Lexeme} (hl : l.Legible) (hkind : l.kind = .name ∨ l.kind = .number) :
    ∃ c cs, l.spelling.toList = c :: cs ∧ isNameChar c := by
  cases hl with
  | symbol | string => rcases hkind with h | h <;> cases h
  | word hs =>
    obtain ⟨c, cs, htext, hstart, -⟩ := exists_cons_of_isWord hs
    exact ⟨c, cs, htext, isNameChar_of_isNameStart hstart⟩
  | number hs =>
    obtain ⟨c, cs, htext, hdigit⟩ := exists_cons_of_isNumeral hs
    exact ⟨c, cs, htext, isNameChar_iff.mpr (.inl (continuesNumber_of_isDigit hdigit))⟩

end Cursor

/-! ### Neighbours -/

/-- The character that stands at a byte. -/
def Source.charAt? (source : Source) (offset : Nat) : Option Char :=
  String.Pos.Raw.get? source.text ⟨offset⟩

theorem Source.charAt?_byteSize {source : Source} {front tail : List Char}
    (h : source.text.toList = front ++ tail) :
    source.charAt? (Cursor.byteSize front) = tail.head? := by
  have htext : source.text = String.ofList (front ++ tail) := by rw [← h, String.ofList_toList]
  rw [charAt?, htext, Cursor.byteSize_eq, String.get?_of_valid]

/-- **A token that follows a byte**, with a filler between them. -/
def Token.Follows (source : Source) (stop : Nat) (token : Token) : Prop :=
  token.lexeme.Legible ∧ ∃ front gap tail,
    source.text.toList = front ++ (gap ++ (token.written ++ tail)) ∧ Cursor.Filler gap ∧
      stop = Cursor.byteSize front ∧ token.first = Cursor.byteSize (front ++ gap)

section Found

variable {source : Source} {token : Token} {stop : Nat} {before text : List Char}
  {tokens : List Token} {fault : Option LexicalFault}

theorem Token.Follows.filler (h : token.Follows source stop) :
    Cursor.Filler (source.between stop token.first).toList := by
  obtain ⟨-, front, gap, tail, htext, hgap, rfl, hfirst⟩ := h
  rw [hfirst, Cursor.byteSize_append,
    Source.between_eq (htext.trans (List.append_assoc _ _ _).symm), String.toList_ofList]
  exact hgap

theorem Token.Follows.le (h : token.Follows source stop) : stop ≤ token.first := by
  obtain ⟨-, front, gap, tail, -, -, rfl, hfirst⟩ := h
  rw [hfirst, Cursor.byteSize_append]
  exact Nat.le_add_right _ _

/-- **A name or a number follows at once** exactly where a character of a name stands. -/
theorem Token.Follows.eq_iff (h : token.Follows source stop) (hword : token.IsWord) :
    stop = token.first ↔ ∃ c ∈ source.charAt? stop, Cursor.isNameChar c := by
  obtain ⟨hlegible, front, gap, tail, htext, hgap, rfl, hfirst⟩ := h
  obtain ⟨c, cs, hwritten, hc⟩ := Cursor.exists_nameChar hlegible hword
  rw [Source.charAt?_byteSize htext, hfirst, Cursor.byteSize_append]
  cases gap with
  | nil =>
    refine iff_of_true (Nat.add_zero _).symm ⟨c, ?_, hc⟩
    rw [List.nil_append, Token.written, hwritten]
    rfl
  | cons d gap =>
    -- a character of the filler takes a byte, and is none of a name
    refine iff_of_false ?_ ?_
    · have hpos := d.utf8Size_pos
      rw [Cursor.byteSize_cons]
      omega
    · rintro ⟨_, ⟨⟩, hd⟩
      rw [hgap.head_not_nameChar d rfl] at hd
      cases hd

namespace Cursor.Split

theorem follows_head (h : Split before text tokens fault)
    (htext : source.text.toList = before ++ text) :
    ∀ token ∈ (Token.proper tokens).head?, token.Follows source (byteSize before) := by
  cases h with
  | fault => exact fun _ htoken => absurd htoken (Option.not_mem_none _)
  | finish _ _ hlexeme =>
    rw [Token.proper_finish hlexeme]
    exact fun _ htoken => absurd htoken (Option.not_mem_none _)
  | token hgap hstands _ =>
    rw [Token.proper_cons hstands.legible]
    rintro _ ⟨⟩
    exact ⟨hstands.legible, _, _, _, htext, hgap, rfl, hstands.first_eq⟩

/-- **The tokens that are split off a text follow one another.** -/
theorem isChain_follows (h : Split before text tokens fault)
    (htext : source.text.toList = before ++ text) :
    (Token.proper tokens).IsChain fun a b => b.Follows source a.last := by
  induction h with
  | fault => exact .nil
  | finish _ _ hlexeme =>
    rw [Token.proper_finish hlexeme]
    exact .nil
  | @token before gap rest token tokens fault hgap hstands hrest ih =>
    have hparts : source.text.toList = before ++ gap ++ token.written ++ rest := by
      rw [htext]
      simp only [List.append_assoc]
    rw [Token.proper_cons hstands.legible]
    refine List.isChain_cons.mpr ⟨fun next hnext => ?_, ih hparts⟩
    rw [hstands.last_eq, ← byteSize_append]
    exact hrest.follows_head hparts next hnext

end Cursor.Split

end Found

namespace Source

variable {source : Source} {token : Token}

/-- **Where a name or a number ends**, no character of a name stands, but for a dollar sign behind a
number. -/
theorem charAt?_last (htoken : token ∈ Token.proper source.tokens.1) :
    (token.kind = .name → ∀ c ∈ source.charAt? token.last, Cursor.isNameChar c = false) ∧
      (token.kind = .number → ∀ c ∈ source.charAt? token.last, Cursor.isNameChar c → c = '$') := by
  obtain ⟨front, tail, hrest, hlast, hends⟩ :=
    Cursor.endsBefore_tokens source.file _ (Cursor.ofSource source) Cursor.behind_nil token htoken
  have htext : source.text.toList = front ++ tail := hrest
  rw [hlast, List.nil_append, charAt?_byteSize htext]
  refine ⟨hends.name, fun hkind c hc hname => ?_⟩
  refine (Cursor.isNameChar_iff.mp hname).resolve_left fun hcontinues => ?_
  rw [hends.number hkind c hc] at hcontinues
  cases hcontinues

/-- **Names and numbers stand apart.** Behind a name there is no character of a name, and behind a
number none but a dollar sign. If two names or numbers follow one another, there is a filler between
them, which is empty exactly where a number is followed by a dollar sign. -/
theorem words_apart (source : Source) :
    (∀ token ∈ Token.proper source.tokens.1,
      (token.kind = .name → ∀ c ∈ source.charAt? token.last, Cursor.isNameChar c = false) ∧
      (token.kind = .number →
        ∀ c ∈ source.charAt? token.last, Cursor.isNameChar c → c = '$')) ∧
    (Token.proper source.tokens.1).IsChain fun a b => a.IsWord → b.IsWord →
      a.last ≤ b.first ∧ Cursor.Filler (source.between a.last b.first).toList ∧
        (a.last = b.first ↔ a.kind = .number ∧ source.charAt? a.last = some '$') := by
  refine ⟨fun token htoken => charAt?_last htoken, ?_⟩
  refine (source.split_tokens.isChain_follows rfl).imp_of_mem_imp fun a b ha _ h hword hword' => ?_
  refine ⟨h.le, h.filler, (h.eq_iff hword').trans ⟨?_, ?_⟩⟩
  · rintro ⟨c, hchar, hc⟩
    obtain ⟨hname, hnumber⟩ := charAt?_last ha
    rcases hword with hkind | hkind
    · rw [hname hkind c hchar] at hc
      cases hc
    · rw [hnumber hkind c hchar hc] at hchar
      exact ⟨hkind, hchar⟩
  · rintro ⟨-, hchar⟩
    exact ⟨'$', hchar, rfl⟩

/-- A number and a name that touch. -/
example : (Source.tokens ⟨"t", "1$a"⟩).1.map (fun token => (token.text, token.first, token.last)) =
    [("1", 0, 1), ("$a", 1, 3), ("", 3, 3)] := by
  decide +kernel

end Source

end SchemaProjection
