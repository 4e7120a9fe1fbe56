import SchemaProjection.Proofs.Grammar.Consumption
import SchemaProjection.Proofs.Grammar.Scanning

/-!
# Progress

Each token but the end token takes characters of the text (`Cursor.passed_of_next`), so there are
no more tokens than characters, and the end token.

For parsers, progress is counted in tokens. What a parser takes at least and how far it may nest are
said together, of two parsers that differ only in the levels that are left for the parts
(`Parse.Agrees`): as long as there are fewer tokens than the bound, both come to the same, and that is
not the fault for too deep a nesting. Behind a token that was taken, one level less is needed, so
the bound falls by one there (`Parse.Agrees.next`).

A loop ends because each of its rounds takes a token, or else ends it (`Parse.perRound`). This is
also why it needs no more rounds than there are tokens (`Parse.loop_run_eq`).
-/

namespace SchemaProjection

/-! ### Characters -/

namespace Cursor

variable {file : String} {cursor behind settled : Cursor} {token : Token} {text passed : List Char}
  {offset line col : Nat}

/-- **A cursor further on in the same text**, by the given characters. -/
structure Passed (passed : List Char) (cursor behind : Cursor) : Prop where
  rest_eq : cursor.rest = passed ++ behind.rest
  offset_eq : behind.offset = cursor.offset + byteSize passed

theorem Passed.trans {passed' : List Char} {last : Cursor} (h : Passed passed cursor behind)
    (h' : Passed passed' behind last) : Passed (passed ++ passed') cursor last := by
  refine ⟨by rw [h.rest_eq, h'.rest_eq, List.append_assoc], ?_⟩
  rw [h'.offset_eq, h.offset_eq, byteSize_append, Nat.add_assoc]

/-- Some characters take some bytes. -/
theorem Passed.offset_lt (h : Passed passed cursor behind) (hpassed : passed ≠ []) :
    cursor.offset < behind.offset := by
  obtain ⟨c, rest, rfl⟩ := List.exists_cons_of_ne_nil hpassed
  have hsize := c.utf8Size_pos
  rw [h.offset_eq, byteSize_cons]
  omega

theorem passed_advance (h : text <+: cursor.rest) : Passed text cursor (cursor.advance text) := by
  obtain ⟨tail, htail⟩ := h
  exact ⟨by rw [rest_advance htail.symm, htail], rfl⟩

/-- A piece of text in front of what is passed. -/
theorem exists_passed_append {line' col' offset' : Nat} (piece : List Char)
    (hoffset : offset' = offset + byteSize piece)
    (h : ∃ gap, Passed gap ⟨text, offset', line', col'⟩ settled) :
    ∃ gap, Passed gap ⟨piece ++ text, offset, line, col⟩ settled := by
  obtain ⟨gap, hgap⟩ := h
  have hpiece : Passed piece ⟨piece ++ text, offset, line, col⟩ ⟨text, offset', line', col'⟩ :=
    ⟨rfl, hoffset⟩
  exact ⟨piece ++ gap, hpiece.trans hgap⟩

/-- What is skipped is passed. -/
theorem passed_of_skipFrom {state : Gap} (h : skipFrom offset line col state text = .ok settled) :
    ∃ gap, Passed gap ⟨text, offset, line, col⟩ settled := by
  -- one case for each equation, those in which the gap goes on first
  fun_induction skipFrom offset line col state text with
  | case1 _ _ _ _ ih => exact exists_passed_append [' '] rfl (ih h)
  | case2 _ _ _ _ ih => exact exists_passed_append ['\t'] rfl (ih h)
  | case3 _ _ _ _ ih | case9 _ _ _ _ ih | case15 _ _ _ _ _ _ ih =>
    exact exists_passed_append ['\n'] rfl (ih h)
  | case4 _ _ _ _ ih => exact exists_passed_append ['\r', '\n'] rfl (ih h)
  | case6 _ _ _ _ ih => exact exists_passed_append ['/', '/'] rfl (ih h)
  | case7 _ _ _ _ ih => exact exists_passed_append ['/', '*'] rfl (ih h)
  | case11 _ _ _ c _ _ _ ih | case16 _ _ _ _ _ c _ _ _ _ ih =>
    exact exists_passed_append [c] (by simp) (ih h)
  | case13 _ _ _ _ _ _ ih => exact exists_passed_append ['*', '/'] rfl (ih h)
  | case8 | case10 | case12 =>
    cases h
    exact ⟨[], rfl, rfl⟩
  | case5 | case14 | case17 => cases h

/-- **A token takes characters**, unless it is the end token. -/
theorem passed_of_next (h : cursor.next file = .ok (token, behind)) :
    token.kind = .finish ∨ ∃ passed, passed ≠ [] ∧ Passed passed cursor behind := by
  obtain ⟨settled, hskip, htake⟩ := next_eq_ok h
  obtain ⟨gap, hgap⟩ : ∃ gap, Passed gap cursor settled := passed_of_skipFrom hskip
  rcases takeToken_cases htake with ⟨-, rfl⟩ | ⟨hcarries, rfl⟩
  · exact .inl rfl
  · obtain ⟨c, cs, hwritten, -⟩ := exists_cons_of_legible hcarries.legible
    have hne : token.written ≠ [] := by
      rw [Token.written, hwritten]
      exact List.cons_ne_nil c cs
    exact .inr ⟨gap ++ token.written, fun hnil => hne (List.append_eq_nil_iff.mp hnil).2,
      hgap.trans (passed_advance hcarries.begins)⟩

theorem length_lt_of_next (h : cursor.next file = .ok (token, behind))
    (hkind : token.kind ≠ .finish) : behind.rest.length < cursor.rest.length := by
  obtain ⟨passed, hne, hpassed⟩ := (passed_of_next h).resolve_left hkind
  have hpos := List.length_pos_of_ne_nil hne
  rw [hpassed.rest_eq, List.length_append]
  omega

/-- **There are no more tokens than characters**, and the end token. -/
theorem length_tokens_le (file : String) (fuel : Nat) (cursor : Cursor) :
    (cursor.tokens file fuel).1.length ≤ cursor.rest.length + 1 := by
  induction fuel generalizing cursor with
  | zero => exact Nat.zero_le _
  | succ fuel ih =>
    rw [tokens]
    cases hnext : cursor.next file with
    | error fault => exact Nat.zero_le _
    | ok taken =>
      obtain ⟨token, behind⟩ := taken
      by_cases hkind : token.kind = .finish
      · simp only [hkind, if_true]
        exact Nat.le_add_left _ _
      · simp only [hkind, if_false]
        have hlt := length_lt_of_next hnext hkind
        have hle := ih behind
        simp only [List.length_cons]
        omega

/-- **More steps than there are characters read no further tokens.** -/
theorem tokens_eq_tokens {fuel fuel' : Nat} (hfuel : cursor.rest.length < fuel)
    (hfuel' : cursor.rest.length < fuel') : cursor.tokens file fuel = cursor.tokens file fuel' := by
  induction fuel generalizing cursor fuel' with
  | zero => cases hfuel
  | succ fuel ih =>
    cases fuel' with
    | zero => cases hfuel'
    | succ fuel' =>
      rw [tokens, tokens]
      cases hnext : cursor.next file with
      | error fault => rfl
      | ok taken =>
        obtain ⟨token, behind⟩ := taken
        by_cases hkind : token.kind = .finish
        · simp only [hkind, if_true]
        · have hlt := length_lt_of_next hnext hkind
          have hrest : behind.tokens file fuel = behind.tokens file fuel' :=
            ih (by omega) (by omega)
          simp only [hkind, if_false, hrest]

end Cursor

/-! ### Tokens -/

theorem TokenStream.Consumed.length_eq {passed : List Token} {s s' : TokenStream}
    (h : Consumed passed s s') : s.rest.length = passed.length + s'.rest.length := by
  have hlength := congrArg List.length h.tokens_eq
  simp only [TokenStream.tokens, List.length_cons, List.length_append] at hlength
  omega

namespace Parse

open TokenStream

variable {α β : Type} {bound bound' : Nat} {taken taken' : α → Nat} {takenLater : β → Nat}
  {x y : Parse α} {f g : α → Parse β} {s : TokenStream}

/-- **Parsers that agree on short streams.** If there are fewer tokens than the bound behind the
current one, they come to the same, and that is not the fault for too deep a nesting. A result
comes with at least so many tokens taken. -/
structure Agrees (bound : Nat) (taken : α → Nat) (x y : Parse α) (s : TokenStream) : Prop where
  run_eq : s.Sound → s.rest.length < bound → x.run s = y.run s
  cause_ne : s.Sound → s.rest.length < bound → ∀ fault, x.run s = .error fault →
    fault.cause ≠ .nesting
  consumed : s.Sound → ∀ a s', x.run s = .ok (a, s') →
    ∃ passed, taken a ≤ passed.length ∧ Consumed passed s s'

/-- What a round of a loop takes: a token, unless it ends the loop. -/
def perRound : Option α → Nat
  | none => 0
  | some _ => 1

theorem Agrees.mono (h : Agrees bound taken x y s) (hbound : bound' ≤ bound)
    (htaken : ∀ a, taken' a ≤ taken a) : Agrees bound' taken' x y s where
  run_eq hs hlt := h.run_eq hs (hlt.trans_le hbound)
  cause_ne hs hlt := h.cause_ne hs (hlt.trans_le hbound)
  consumed hs a s' hrun := by
    obtain ⟨passed, hle, hconsumed⟩ := h.consumed hs a s' hrun
    exact ⟨passed, (htaken a).trans hle, hconsumed⟩

/-- Streams that are short enough for a bound are so for the next. -/
theorem Agrees.lower {n : Nat} (h : Agrees (n + 1) taken x y s) : Agrees n taken x y s :=
  h.mono n.le_succ fun _ => Nat.le_refl _

/-- What is taken need not count. -/
theorem Agrees.uncounted (h : Agrees bound taken x y s) : Agrees bound (fun _ => 0) x y s :=
  h.mono (Nat.le_refl _) fun _ => Nat.zero_le _

theorem Agrees.of_run {x' y' : Parse α} (h : Agrees bound taken x' y' s)
    (hx : x.run s = x'.run s) (hy : y.run s = y'.run s) : Agrees bound taken x y s where
  run_eq hs hlt := by rw [hx, hy, h.run_eq hs hlt]
  cause_ne hs hlt fault hrun := h.cause_ne hs hlt fault (hx ▸ hrun)
  consumed hs a s' hrun := h.consumed hs a s' (hx ▸ hrun)

/-- A parser that takes a token may be a round. -/
theorem Agrees.round {x y : Parse (Option α)} (h : Agrees bound (fun _ => 1) x y s) :
    Agrees bound perRound x y s := by
  refine h.mono (Nat.le_refl _) fun next => ?_
  cases next with
  | none => exact Nat.zero_le 1
  | some _ => exact Nat.le_refl 1

theorem Agrees.pure {a : α} (h : taken a = 0) : Agrees bound taken (pure a) (pure a) s := by
  refine ⟨fun _ _ => rfl, fun _ _ => nofun, fun _ b s' hrun => ?_⟩
  cases hrun
  exact ⟨[], h.le, .refl s⟩

theorem agrees_failAt (span : Span) {cause : SyntaxCause} (h : cause ≠ .nesting) :
    Agrees bound taken (failAt span cause) (failAt span cause) s := by
  refine ⟨fun _ _ => rfl, fun _ _ fault hrun => ?_, fun _ => nofun⟩
  cases hrun
  exact h

theorem agrees_current_bind {g g' : Token → Parse α}
    (h : Agrees bound taken (g s.current) (g' s.current) s) :
    Agrees bound taken (current >>= g) (current >>= g') s :=
  h.of_run rfl rfl

theorem agrees_fail {cause : SyntaxCause} (h : cause ≠ .nesting) :
    Agrees bound taken (fail cause) (fail cause) s :=
  agrees_current_bind (agrees_failAt s.current.span h)

/-- Without levels nothing is read. -/
theorem agrees_nesting : Agrees 0 taken (fail .nesting) y s :=
  ⟨fun _ h => absurd h (Nat.not_lt_zero _), fun _ h => absurd h (Nat.not_lt_zero _), fun _ => nofun⟩

/-- No stream is short enough for the bound zero. -/
theorem Agrees.zero (h : Agrees bound taken x y s) (z : Parse α) : Agrees 0 taken x z s :=
  ⟨fun _ h => absurd h (Nat.not_lt_zero _), fun _ h => absurd h (Nat.not_lt_zero _), h.consumed⟩

/-- **One parser after another.** What the first takes, the second need not take, nor is it left
to the second. -/
theorem Agrees.bind_of_run (hx : Agrees bound taken x y s)
    (hf : ∀ a s', x.run s = .ok (a, s') → s'.rest.length + taken a ≤ s.rest.length →
      Agrees (bound - taken a) (fun b => takenLater b - taken a) (f a) (g a) s') :
    Agrees bound takenLater (x >>= f) (y >>= g) s := by
  -- what is left for the second parser
  have hmid : s.Sound → ∀ a s', x.run s = .ok (a, s') → s'.Sound ∧
      ∃ passed, taken a ≤ passed.length ∧ Consumed passed s s' ∧
        Agrees (bound - taken a) (fun b => takenLater b - taken a) (f a) (g a) s' := by
    intro hs a s' hrun
    obtain ⟨passed, htaken, hconsumed⟩ := hx.consumed hs a s' hrun
    have hlength := hconsumed.length_eq
    exact ⟨hconsumed.sound hs, passed, htaken, hconsumed, hf a s' hrun (by omega)⟩
  refine ⟨fun hs hlt => ?_, fun hs hlt fault hrun => ?_, fun hs b s'' hrun => ?_⟩
  · rw [StateT.run_bind, StateT.run_bind, ← hx.run_eq hs hlt]
    cases hfirst : x.run s with
    | error fault => rfl
    | ok read =>
      obtain ⟨a, s'⟩ := read
      obtain ⟨hs', passed, htaken, hconsumed, hagrees⟩ := hmid hs a s' hfirst
      have hlength := hconsumed.length_eq
      exact hagrees.run_eq hs' (by omega)
  · rw [StateT.run_bind] at hrun
    cases hfirst : x.run s with
    | error fault' =>
      rw [hfirst] at hrun
      cases hrun
      exact hx.cause_ne hs hlt fault hfirst
    | ok read =>
      obtain ⟨a, s'⟩ := read
      obtain ⟨hs', passed, htaken, hconsumed, hagrees⟩ := hmid hs a s' hfirst
      have hlength := hconsumed.length_eq
      rw [hfirst] at hrun
      exact hagrees.cause_ne hs' (by omega) fault hrun
  · obtain ⟨a, s', hfirst, hrest⟩ := exists_of_run_bind hrun
    obtain ⟨hs', passed, htaken, hconsumed, hagrees⟩ := hmid hs a s' hfirst
    obtain ⟨passed', htaken', hconsumed'⟩ := hagrees.consumed hs' b s'' hrest
    refine ⟨passed ++ passed', ?_, hconsumed.trans hconsumed'⟩
    rw [List.length_append]
    omega

theorem Agrees.bind (hx : Agrees bound taken x y s)
    (hf : ∀ a s', Agrees bound takenLater (f a) (g a) s') :
    Agrees bound takenLater (x >>= f) (y >>= g) s :=
  hx.bind_of_run fun a s' _ _ => (hf a s').mono (Nat.sub_le _ _) fun _ => Nat.sub_le _ _

/-- A token is taken, and what follows need not take another. -/
theorem Agrees.followed (hx : Agrees bound (fun _ => 1) x y s)
    (hf : ∀ a s', Agrees bound (fun _ => 0) (f a) (g a) s') :
    Agrees bound (fun _ => 1) (x >>= f) (y >>= g) s :=
  hx.bind_of_run fun a s' _ _ => (hf a s').mono (Nat.sub_le _ _) fun _ => Nat.le_refl 0

/-- **Behind a token that was taken, the bound has fallen by one.** -/
theorem Agrees.next {n : Nat} (hx : Agrees (n + 1) (fun _ => 1) x y s)
    (hf : ∀ a s', Agrees n (fun _ => 0) (f a) (g a) s') :
    Agrees (n + 1) (fun _ => 1) (x >>= f) (y >>= g) s :=
  hx.bind_of_run fun a s' _ _ => hf a s'

theorem agrees_pure_bind {a : α} (h : Agrees bound takenLater (f a) (g a) s) :
    Agrees bound takenLater (pure a >>= f) (pure a >>= g) s :=
  h.of_run rfl rfl

/-! ### Single tokens -/

theorem agrees_label_bind {g g' : String → Parse α}
    (h : Agrees bound taken (g s.current.label) (g' s.current.label) s) :
    Agrees bound taken (label >>= g) (label >>= g') s :=
  h.of_run rfl rfl

theorem agrees_closing_bind {span : Span} {g g' : Span → Parse α}
    (h : Agrees bound taken (g { span with stop := s.lastStop })
      (g' { span with stop := s.lastStop }) s) :
    Agrees bound taken (closing span >>= g) (closing span >>= g') s :=
  h.of_run rfl rfl

/-- A lexical fault is not one of nesting. -/
theorem cause_of_advance {fault : SyntaxFault} (h : advance.run s = .error fault) :
    fault.cause ≠ .nesting := by
  obtain ⟨current, rest, behind, lastStop⟩ := s
  cases rest with
  | cons token rest => cases h
  | nil =>
    cases behind with
    | none => cases h
    | some lexical =>
      cases h
      exact SyntaxCause.noConfusion

/-- **Every token but the end token is taken.** -/
theorem agrees_advance (h : s.current.lexeme ≠ .finish) :
    Agrees bound (fun _ => 1) advance advance s where
  run_eq _ _ := rfl
  cause_ne _ _ _ := cause_of_advance
  consumed hs _ _ hrun := ⟨[s.current], Nat.le_refl 1, consumed_of_advance hs h hrun⟩

/-- The end token has no label. -/
theorem agrees_advance_of_label {text : String} (h : s.current.label = text) (htext : text ≠ "") :
    Agrees bound (fun _ => 1) advance advance s :=
  agrees_advance fun hfinish => htext (h.symm.trans (congrArg Lexeme.label hfinish))

theorem agrees_advance_of_kind {kind : TokenKind} (h : s.current.kind = kind)
    (hkind : kind ≠ .finish) : Agrees bound (fun _ => 1) advance advance s :=
  agrees_advance (lexeme_ne_of_kind h hkind.symm)

theorem agrees_expect {text : String} (context : GrammarContext) (htext : text ≠ "") :
    Agrees bound (fun _ => 1) (expect text context) (expect text context) s := by
  refine agrees_label_bind ?_
  split
  · next hlabel => exact agrees_advance_of_label hlabel htext
  · exact agrees_fail SyntaxCause.noConfusion

theorem agrees_skip {text : String} (htext : text ≠ "") :
    Agrees bound (fun _ => 0) (skip text) (skip text) s := by
  refine agrees_label_bind ?_
  split
  · next hlabel =>
    exact (agrees_advance_of_label hlabel htext).uncounted
  · exact .pure rfl

theorem agrees_identifier : Agrees bound (fun _ => 1) identifier identifier s := by
  refine agrees_current_bind ?_
  split_ifs with hkind
  · exact agrees_fail SyntaxCause.noConfusion
  · exact agrees_fail SyntaxCause.noConfusion
  · rw [not_not] at hkind
    exact (agrees_advance_of_kind hkind (by decide)).followed fun _ _ => .pure rfl

theorem agrees_memberName : Agrees bound (fun _ => 1) memberName memberName s := by
  refine agrees_current_bind ?_
  split_ifs with hkind
  · exact agrees_fail SyntaxCause.noConfusion
  · rw [not_not] at hkind
    exact (agrees_advance_of_kind hkind (by decide)).followed fun _ _ => .pure rfl

/-! ### Loops and lists -/

section Loops

variable {round round' : α → Parse (Option α)}

/-- As long as there are as many rounds as tokens, a loop is not cut short. -/
theorem agrees_loop (hround : ∀ a s, Agrees bound perRound (round a) (round' a) s)
    {tokens : List Token} (a : α) (htokens : s.rest.length ≤ tokens.length) :
    Agrees bound (fun _ => 0) (loop round tokens a) (loop round' tokens a) s := by
  induction tokens generalizing a s with
  | nil =>
    refine (hround a s).bind_of_run fun next s' _ hlength => ?_
    cases next with
    | none => exact .pure rfl
    | some next =>
      -- without a token left, there is none to take
      simp only [perRound, List.length_nil] at hlength htokens
      omega
  | cons token tokens ih =>
    refine (hround a s).bind_of_run fun next s' _ hlength => ?_
    cases next with
    | none => exact .pure rfl
    | some next =>
      simp only [perRound, List.length_cons] at hlength htokens
      have htokens' : s'.rest.length ≤ tokens.length := by omega
      exact (ih next htokens').mono (Nat.sub_le _ _) fun _ => Nat.zero_le _

theorem agrees_iterate (hround : ∀ a s, Agrees bound perRound (round a) (round' a) s) (a : α) :
    Agrees bound (fun _ => 0) (iterate round a) (iterate round' a) s :=
  (agrees_loop hround a (Nat.le_refl _)).of_run rfl rfl

theorem run_bind_congr {x : Parse α} {f g : α → Parse β}
    (h : ∀ a s', x.run s = .ok (a, s') → (f a).run s' = (g a).run s') :
    (x >>= f).run s = (x >>= g).run s := by
  rw [StateT.run_bind, StateT.run_bind]
  cases hrun : x.run s with
  | error fault => rfl
  | ok read => exact h read.1 read.2 hrun

/-- A round that goes on leaves fewer tokens. -/
theorem Agrees.shortened {x y : Parse (Option α)} (h : Agrees bound perRound x y s) (hs : s.Sound)
    {a : α} {s' : TokenStream} (hrun : x.run s = .ok (some a, s')) :
    s'.Sound ∧ s'.rest.length < s.rest.length := by
  obtain ⟨passed, htaken, hconsumed⟩ := h.consumed hs (some a) s' hrun
  have hlength := hconsumed.length_eq
  simp only [perRound] at htaken
  exact ⟨hconsumed.sound hs, by omega⟩

/-- Without tokens left, the first round is the last. -/
theorem loop_run_nil (hround : ∀ a s, Agrees bound perRound (round a) (round a) s) (a : α)
    (hs : s.Sound) (hrest : s.rest.length ≤ 0) (tokens : List Token) :
    (loop round tokens a).run s = (loop round [] a).run s := by
  cases tokens with
  | nil => rfl
  | cons token tokens =>
    refine run_bind_congr fun next s' hrun => ?_
    cases next with
    | none => rfl
    | some next =>
      have hlt := ((hround a s).shortened hs hrun).2
      exact absurd (hlt.trans_le hrest) (Nat.not_lt_zero _)

/-- **A loop needs no more rounds than there are tokens.** -/
theorem loop_run_eq (hround : ∀ a s, Agrees bound perRound (round a) (round a) s)
    {tokens tokens' : List Token} (a : α) (hs : s.Sound) (htokens : s.rest.length ≤ tokens.length)
    (htokens' : s.rest.length ≤ tokens'.length) :
    (loop round tokens a).run s = (loop round tokens' a).run s := by
  induction tokens generalizing a s tokens' with
  | nil => exact (loop_run_nil hround a hs htokens tokens').symm
  | cons token tokens ih =>
    cases tokens' with
    | nil => exact loop_run_nil hround a hs htokens' (token :: tokens)
    | cons token' tokens' =>
      refine run_bind_congr fun next s' hrun => ?_
      cases next with
      | none => rfl
      | some next =>
        obtain ⟨hs', hlt⟩ := (hround a s).shortened hs hrun
        exact ih next hs' (Nat.le_of_lt_succ (hlt.trans_le htokens))
          (Nat.le_of_lt_succ (hlt.trans_le htokens'))

end Loops

theorem agrees_nextItem {item item' : Parse α} (endsEarly : Bool)
    (hitem : ∀ s, Agrees bound taken item item' s) (items : List α) :
    Agrees bound perRound (nextItem endsEarly item items) (nextItem endsEarly item' items) s := by
  refine agrees_label_bind ?_
  split_ifs with hcomma
  · exact .pure rfl
  · rw [not_not] at hcomma
    refine (Agrees.followed (agrees_advance_of_label hcomma (by decide)) fun _ s => ?_).round
    refine agrees_current_bind ?_
    split_ifs
    · exact .pure rfl
    · exact (hitem s).bind fun _ _ => .pure rfl

theorem agrees_listOf {n : Nat} {item item' : Parse α} (endsEarly : Bool)
    (context : GrammarContext) (hitem : ∀ s, Agrees n taken item item' s) :
    Agrees (n + 1) (fun _ => 1) (listOf endsEarly context item) (listOf endsEarly context item')
      s := by
  have hclose : ∀ (items : List α) (s : TokenStream),
      Agrees n (fun _ => 0) (expect ")" context >>= fun _ => Pure.pure items.reverse)
        (expect ")" context >>= fun _ => Pure.pure items.reverse) s :=
    fun items s => (agrees_expect context (by decide)).bind fun _ _ => .pure rfl
  refine (agrees_expect context (by decide)).next fun _ s => agrees_label_bind ?_
  dsimp only
  split_ifs
  · exact hclose [] s
  · exact (hitem s).bind fun first _ =>
      (agrees_iterate (fun items _ => agrees_nextItem endsEarly hitem items) [first]).bind hclose

end Parse

end SchemaProjection
