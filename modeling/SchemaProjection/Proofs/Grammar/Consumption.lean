import SchemaProjection.Proofs.Grammar.Expressions

/-!
# What parsers consume

A parser that succeeds has consumed the tokens in front of those that it leaves
(`TokenStream.Consumed`). Which tokens these may be is said here as far as declarations are
concerned: the keyword that begins a declaration is consumed only in front of one, or behind a
point, where it is the name of a member (`Inert`). So between two declarations, and within one,
there is no other.

The parts of the grammar are gone through one by one, each for the case that this holds of what it
contains (`Parsers.Inertly`). A part that begins with a keyword consumes its first token whatever
that is, so it is only considered where the keyword stands.
-/

namespace SchemaProjection

/-! ### Tokens among which no declaration begins -/

/-- **Tokens among which no declaration begins.** -/
inductive Inert : List Token → Prop
  | nil : Inert []
  | cons {token : Token} {rest : List Token} : token.lexeme ≠ .word "projection" →
    token.lexeme ≠ .symbol "." → Inert rest → Inert (token :: rest)
  /-- Every name may stand behind a point. -/
  | member {point name : Token} {rest : List Token} : point.label = "." → name.kind = .name →
    Inert rest → Inert (point :: name :: rest)

theorem Inert.append {passed rest : List Token} (h : Inert passed) (hrest : Inert rest) :
    Inert (passed ++ rest) := by
  induction h with
  | nil => exact hrest
  | cons hword hpoint _ ih => exact .cons hword hpoint ih
  | member hpoint hname _ ih => exact .member hpoint hname ih

/-- A token with any other label. -/
theorem Inert.of_label {token : Token} {text : String} (hlabel : token.label = text)
    (htext : text ∉ ["projection", "."]) : Inert [token] := by
  simp only [List.mem_cons, List.not_mem_nil, or_false, not_or] at htext
  refine .cons (fun hword => htext.1 ?_) (fun hpoint => htext.2 ?_) .nil
  · exact hlabel.symm.trans (congrArg Lexeme.label hword)
  · exact hlabel.symm.trans (congrArg Lexeme.label hpoint)

theorem lexeme_ne_of_kind {token : Token} {kind : TokenKind} {l : Lexeme}
    (hkind : token.kind = kind) (hl : l.kind ≠ kind) : token.lexeme ≠ l :=
  fun h => hl ((congrArg Lexeme.kind h).symm.trans hkind)

/-- A literal. -/
theorem Inert.of_kind {token : Token} {kind : TokenKind} (hkind : token.kind = kind)
    (hname : .name ≠ kind) (hsymbol : .symbol ≠ kind) : Inert [token] :=
  .cons (lexeme_ne_of_kind hkind hname) (lexeme_ne_of_kind hkind hsymbol) .nil

/-! ### Streams -/

namespace TokenStream

variable {s s' s'' : TokenStream} {passed passed' : List Token}

def tokens (s : TokenStream) : List Token := s.current :: s.rest

/-- The last token of a stream without fault is the end token, which stays when it is consumed. -/
def Sound (s : TokenStream) : Prop :=
  s.fault = none → ∀ token ∈ s.tokens.getLast?, token.lexeme = .finish

/-- **Consumption** of some tokens, which leads from one stream to another. -/
structure Consumed (passed : List Token) (s s' : TokenStream) : Prop where
  tokens_eq : s.tokens = passed ++ s'.tokens
  fault_eq : s'.fault = s.fault

theorem Consumed.refl (s : TokenStream) : Consumed [] s s := ⟨rfl, rfl⟩

theorem Consumed.trans (h : Consumed passed s s') (h' : Consumed passed' s' s'') :
    Consumed (passed ++ passed') s s'' :=
  ⟨by rw [h.tokens_eq, h'.tokens_eq, List.append_assoc], h'.fault_eq.trans h.fault_eq⟩

theorem Consumed.sound (h : Consumed passed s s') (hs : s.Sound) : s'.Sound := by
  intro hfault token htoken
  refine hs (h.fault_eq ▸ hfault) token ?_
  rw [h.tokens_eq, TokenStream.tokens, List.getLast?_append_cons]
  exact htoken

end TokenStream

open TokenStream

namespace Parse

variable {α β : Type} {x : Parse α} {f : α → Parse β} {s s' : TokenStream}

/-! ### Single tokens -/

theorem consumed_advance (hs : s.Sound) (h : advance.run s = .ok ((), s')) :
    Consumed [s.current] s s' ∨ s.current.lexeme = .finish ∧ Consumed [] s s' := by
  obtain ⟨current, rest, fault, lastStop⟩ := s
  cases rest with
  | cons token rest =>
    cases h
    exact .inl ⟨rfl, rfl⟩
  | nil =>
    -- behind the last token there is a fault, or it is the end token
    cases fault with
    | some fault => cases h
    | none =>
      cases h
      exact .inr ⟨hs rfl current rfl, rfl, rfl⟩

theorem lastStop_of_advance (h : advance.run s = .ok ((), s')) :
    s'.lastStop = s.current.span.stop := by
  obtain ⟨current, rest, fault, lastStop⟩ := s
  cases rest with
  | cons token rest => cases h; rfl
  | nil =>
    cases fault with
    | some fault => cases h
    | none => cases h; rfl

/-- Only the end token stays. -/
theorem consumed_of_advance (hs : s.Sound) (hcurrent : s.current.lexeme ≠ .finish)
    (h : advance.run s = .ok ((), s')) : Consumed [s.current] s s' :=
  (consumed_advance hs h).resolve_right fun hfinish => hcurrent hfinish.1

/-- What a parser that is followed by another has led to. -/
theorem exists_of_run_bind {b : β} (h : (x >>= f).run s = .ok (b, s')) :
    ∃ a mid, x.run s = .ok (a, mid) ∧ (f a).run mid = .ok (b, s') := by
  rw [StateT.run_bind] at h
  cases hx : x.run s with
  | error fault => rw [hx] at h; cases h
  | ok read =>
    obtain ⟨a, mid⟩ := read
    rw [hx] at h
    exact ⟨a, mid, rfl, h⟩

/-- What a parser that begins with a label has consumed. -/
theorem exists_of_expect_bind {text : String} {context : GrammarContext} {g : Unit → Parse β}
    {b : β} (hs : s.Sound) (htext : text ≠ "")
    (h : (expect text context >>= g).run s = .ok (b, s')) :
    s.current.label = text ∧ ∃ mid, Consumed [s.current] s mid ∧
      mid.lastStop = s.current.span.stop ∧ (g ()).run mid = .ok (b, s') := by
  obtain ⟨_, mid, hexpect, hrest⟩ := exists_of_run_bind h
  have hexpect : (if s.current.label = text then advance else fail (.missing text context)).run s =
      .ok ((), mid) := hexpect
  split at hexpect
  · next hlabel =>
    have hconsumed := consumed_of_advance hs (fun hfinish => htext ?_) hexpect
    · exact ⟨hlabel, mid, hconsumed, lastStop_of_advance hexpect, hrest⟩
    · exact hlabel.symm.trans (congrArg Lexeme.label hfinish)
  · cases hexpect

/-- What is read as an identifier. -/
theorem read_of_identifier {w : Word} (h : identifier.run s = .ok (w, s')) :
    w = s.current.word ∧ s.current.kind = .name ∧ ¬ keywords.contains s.current.text ∧
      advance.run s = .ok ((), s') := by
  have h : (if s.current.kind ≠ .name then fail .missingName
    else if keywords.contains s.current.text then fail (.unexpectedKeyword s.current.text)
    else do
      advance
      return s.current.word).run s = .ok (w, s') := h
  split_ifs at h with hkind hkeyword
  · cases h
  · cases h
  · obtain ⟨_, mid, hadvance, hpure⟩ := exists_of_run_bind h
    cases hpure
    exact ⟨rfl, not_not.mp hkind, hkeyword, hadvance⟩

theorem consumed_of_identifier {w : Word} (hs : s.Sound) (h : identifier.run s = .ok (w, s')) :
    w = s.current.word ∧ Inert [s.current] ∧ Consumed [s.current] s s' := by
  obtain ⟨rfl, hkind, hkeyword, hadvance⟩ := read_of_identifier h
  have hword : s.current.lexeme ≠ .word "projection" := fun hword => hkeyword <| by
    have htext : s.current.text = "projection" := congrArg Lexeme.text hword
    rw [htext]
    decide
  exact ⟨rfl, .cons hword (lexeme_ne_of_kind hkind (by decide)) .nil,
    consumed_of_advance hs (lexeme_ne_of_kind hkind (by decide)) hadvance⟩

/-- What a parser that begins with an identifier has consumed. -/
theorem exists_of_identifier_bind {g : Word → Parse β} {b : β} (hs : s.Sound)
    (h : (identifier >>= g).run s = .ok (b, s')) :
    Inert [s.current] ∧ ∃ mid, Consumed [s.current] s mid ∧
      (g s.current.word).run mid = .ok (b, s') := by
  obtain ⟨w, mid, hidentifier, hrest⟩ := exists_of_run_bind h
  obtain ⟨rfl, hinert, hconsumed⟩ := consumed_of_identifier hs hidentifier
  exact ⟨hinert, mid, hconsumed, hrest⟩

theorem consumed_of_memberName {w : Word} (hs : s.Sound) (h : memberName.run s = .ok (w, s')) :
    s.current.kind = .name ∧ Consumed [s.current] s s' := by
  have h : (if s.current.kind ≠ .name then fail .missingMember
    else do
      advance
      return s.current.word).run s = .ok (w, s') := h
  split_ifs at h with hkind
  · cases h
  · obtain ⟨_, mid, hadvance, hpure⟩ := exists_of_run_bind h
    cases hpure
    rw [not_not] at hkind
    exact ⟨hkind, consumed_of_advance hs (lexeme_ne_of_kind hkind (by decide)) hadvance⟩

/-! ### Parsers that declare nothing -/

/-- **A parser that declares nothing**: from the given stream on, it consumes inert tokens. -/
def Inertly (x : Parse α) (s : TokenStream) : Prop :=
  s.Sound → ∀ a s', x.run s = .ok (a, s') → ∃ passed, Inert passed ∧ Consumed passed s s'

theorem Inertly.pure (a : α) : Inertly (pure a) s := by
  intro _ _ _ h
  cases h
  exact ⟨[], .nil, .refl s⟩

theorem inertly_failAt (span : Span) (cause : SyntaxCause) :
    Inertly (failAt span cause : Parse α) s := nofun

theorem inertly_fail (cause : SyntaxCause) : Inertly (fail cause : Parse α) s := nofun

theorem Inertly.bind_of_run (hx : Inertly x s)
    (hf : ∀ a s', x.run s = .ok (a, s') → Inertly (f a) s') : Inertly (x >>= f) s := by
  intro hs b s' h
  obtain ⟨a, mid, hrun, hrest⟩ := exists_of_run_bind h
  obtain ⟨passed, hinert, hconsumed⟩ := hx hs a mid hrun
  obtain ⟨passed', hinert', hconsumed'⟩ := hf a mid hrun (hconsumed.sound hs) b s' hrest
  exact ⟨passed ++ passed', hinert.append hinert', hconsumed.trans hconsumed'⟩

theorem Inertly.bind (hx : Inertly x s) (hf : ∀ a s, Inertly (f a) s) : Inertly (x >>= f) s :=
  hx.bind_of_run fun a s' _ => hf a s'

/-- What is done with the current token. -/
theorem inertly_current_bind {g : Token → Parse α} (h : Inertly (g s.current) s) :
    Inertly (current >>= g) s := h

theorem inertly_label_bind {g : String → Parse α} (h : Inertly (g s.current.label) s) :
    Inertly (label >>= g) s := h

theorem inertly_closing_bind {span : Span} {g : Span → Parse α}
    (h : Inertly (g { span with stop := s.lastStop }) s) : Inertly (closing span >>= g) s := h

theorem inertly_advance (hinert : Inert [s.current]) : Inertly advance s := by
  intro hs a s' h
  rcases consumed_advance hs h with hconsumed | ⟨-, hconsumed⟩
  · exact ⟨_, hinert, hconsumed⟩
  · exact ⟨_, .nil, hconsumed⟩

theorem inertly_expect {text : String} (context : GrammarContext)
    (htext : text ∉ ["projection", "."]) : Inertly (expect text context) s := by
  refine inertly_label_bind ?_
  split
  · next hlabel => exact inertly_advance (.of_label hlabel htext)
  · exact inertly_fail _

theorem inertly_skip {text : String} (htext : text ∉ ["projection", "."]) :
    Inertly (skip text) s := by
  refine inertly_label_bind ?_
  split
  · next hlabel => exact inertly_advance (.of_label hlabel htext)
  · exact .pure _

theorem inertly_identifier : Inertly identifier s := by
  intro hs w s' h
  obtain ⟨-, hinert, hconsumed⟩ := consumed_of_identifier hs h
  exact ⟨_, hinert, hconsumed⟩

/-- A point and the name behind it are consumed together. -/
theorem inertly_member {g : Word → Parse α} (hpoint : s.current.label = ".")
    (hg : ∀ w s, Inertly (g w) s) : Inertly (do advance; let field ← memberName; g field) s := by
  intro hs a s' h
  obtain ⟨_, mid, hadvance, h⟩ := exists_of_run_bind h
  obtain ⟨w, behind, hmember, hrest⟩ := exists_of_run_bind h
  have hfinish : s.current.lexeme ≠ .finish := fun hfinish => by
    have hlabel : s.current.label = "" := congrArg Lexeme.label hfinish
    exact absurd (hpoint.symm.trans hlabel) (by decide)
  have hconsumed := consumed_of_advance hs hfinish hadvance
  have hsound := hconsumed.sound hs
  -- neither token is inert on its own
  obtain ⟨hname, hconsumed'⟩ := consumed_of_memberName hsound hmember
  obtain ⟨passed, hinert, hconsumed''⟩ := hg w behind (hconsumed'.sound hsound) a s' hrest
  exact ⟨_, .member hpoint hname hinert, (hconsumed.trans hconsumed').trans hconsumed''⟩

/-! ### Loops and lists -/

theorem inertly_loop {round : α → Parse (Option α)} (hround : ∀ a s, Inertly (round a) s)
    (tokens : List Token) (a : α) (s : TokenStream) : Inertly (loop round tokens a) s := by
  induction tokens generalizing a s with
  | nil =>
    refine (hround a s).bind fun next s => ?_
    cases next with
    | none => exact .pure a
    | some next => exact inertly_fail _
  | cons token tokens ih =>
    refine (hround a s).bind fun next s => ?_
    cases next with
    | none => exact .pure a
    | some next => exact ih next s

theorem inertly_iterate {round : α → Parse (Option α)} (hround : ∀ a s, Inertly (round a) s)
    (a : α) : Inertly (iterate round a) s :=
  inertly_loop hround s.rest a s

theorem inertly_nextItem {item : Parse α} (endsEarly : Bool) (hitem : ∀ s, Inertly item s)
    (items : List α) (s : TokenStream) : Inertly (nextItem endsEarly item items) s := by
  refine inertly_label_bind ?_
  split_ifs with hcomma
  · exact .pure none
  · rw [not_not] at hcomma
    refine (inertly_advance (.of_label hcomma (by decide))).bind fun _ s => inertly_current_bind ?_
    split_ifs
    · exact .pure _
    · exact (hitem s).bind fun _ s => .pure _

theorem inertly_listOf {item : Parse α} (endsEarly : Bool) (context : GrammarContext)
    (hitem : ∀ s, Inertly item s) (s : TokenStream) :
    Inertly (listOf endsEarly context item) s := by
  have hclose : ∀ (items : List α) (s : TokenStream),
      Inertly (expect ")" context >>= fun _ => Pure.pure items.reverse) s :=
    fun items s => (inertly_expect context (by decide)).bind fun _ _ => .pure _
  refine (inertly_expect context (by decide)).bind fun _ s => inertly_label_bind ?_
  dsimp only
  split_ifs
  · exact hclose [] s
  · exact (hitem s).bind fun first s =>
      (inertly_iterate (inertly_nextItem endsEarly hitem) [first]).bind hclose

end Parse

open Parse

namespace Parsers

variable {p : Parsers} {s : TokenStream}

/-- **What the parsers for the parts are good for.** -/
structure Inertly (p : Parsers) : Prop where
  expr : ∀ s, p.expr.Inertly s
  operand : ∀ s, p.operand.Inertly s
  block : ∀ s, p.block.Inertly s
  cond : ∀ s, s.current.label = "if" → p.cond.Inertly s

/-! ### Operands -/

theorem inertly_atom (s : TokenStream) : atom.Inertly s := by
  refine inertly_current_bind ?_
  split
  · next hkind =>
    exact (inertly_advance (.of_kind hkind (by decide) (by decide))).bind fun _ _ => .pure _
  · next hkind =>
    split
    · exact (inertly_advance (.of_kind hkind (by decide) (by decide))).bind fun _ _ => .pure _
    · exact inertly_fail _
  · next hkind =>
    split_ifs with hbool
    · have hlabel : s.current.label = s.current.text := if_neg (by rw [hkind]; decide)
      rw [Bool.or_eq_true, decide_eq_true_eq, decide_eq_true_eq] at hbool
      rcases hbool with htext | htext <;>
        exact (inertly_advance (.of_label (hlabel.trans htext) (by decide))).bind fun _ _ =>
          .pure _
    · exact inertly_identifier.bind fun _ _ => .pure _
  · exact inertly_fail _

theorem inertly_parameters (context : GrammarContext) (s : TokenStream) :
    (parameters context).Inertly s :=
  inertly_listOf false context (fun _ => inertly_identifier) s

section Parts

variable (hp : p.Inertly)
include hp

theorem inertly_arguments (context : GrammarContext) (s : TokenStream) :
    (p.arguments context).Inertly s :=
  inertly_listOf true context hp.expr s

theorem inertly_lambda? (s : TokenStream) : p.lambda?.Inertly s := by
  intro hs lambda s' h
  rw [run_lambda?] at h
  cases hparams : (parameters .lambdaParameters).run s with
  | error fault =>
    rw [hparams] at h
    cases h
    exact ⟨[], .nil, .refl s⟩
  | ok read =>
    obtain ⟨params, behind⟩ := read
    simp only [hparams] at h
    split_ifs at h with harrow
    · -- without an arrow the parameters have been read for nothing
      cases h
      exact ⟨[], .nil, .refl s⟩
    · rw [not_not] at harrow
      obtain ⟨passed, hinert, hconsumed⟩ := inertly_parameters _ s hs params behind hparams
      have hbody : Parse.Inertly (do
          advance
          let body ← p.block
          return some (Expr.lambda (← closing s.current.span) params body)) behind :=
        (inertly_advance (.of_label harrow (by decide))).bind fun _ s =>
          (hp.block s).bind fun _ _ => inertly_closing_bind (.pure _)
      obtain ⟨passed', hinert', hconsumed'⟩ := hbody (hconsumed.sound hs) lambda s' h
      exact ⟨passed ++ passed', hinert.append hinert', hconsumed.trans hconsumed'⟩

omit hp in
/-- Where there is no lambda, nothing has been consumed. -/
theorem eq_of_lambda?_none {s' : TokenStream} (h : p.lambda?.run s = .ok (none, s')) : s' = s := by
  rw [run_lambda?] at h
  cases hparams : (parameters .lambdaParameters).run s with
  | error fault =>
    rw [hparams] at h
    cases h
    rfl
  | ok read =>
    simp only [hparams] at h
    split_ifs at h
    · cases h
      rfl
    · -- behind an arrow there is a lambda, or a fault
      obtain ⟨_, _, -, h⟩ := exists_of_run_bind h
      obtain ⟨_, _, -, h⟩ := exists_of_run_bind h
      obtain ⟨_, _, -, h⟩ := exists_of_run_bind h
      cases h

theorem inertly_parenthesized (hlabel : s.current.label = "(") : p.parenthesized.Inertly s := by
  refine (inertly_lambda? hp s).bind_of_run fun lambda s' h => ?_
  cases lambda with
  | some lambda => exact .pure lambda
  | none =>
    obtain rfl := eq_of_lambda?_none h
    refine (inertly_advance (.of_label hlabel (by decide))).bind fun _ s => (hp.expr s).bind ?_
    exact fun _ _ => (inertly_expect _ (by decide)).bind fun _ _ => .pure _

theorem inertly_decorator (hlabel : s.current.label = "@") : p.decorator.Inertly s := by
  refine inertly_current_bind ?_
  refine (inertly_advance (.of_label hlabel (by decide))).bind fun _ s => ?_
  refine inertly_identifier.bind fun _ s => (inertly_arguments hp _ s).bind fun _ s => ?_
  exact inertly_closing_bind (.pure _)

theorem inertly_suffix? (start : Nat) (term : Expr) (s : TokenStream) :
    (p.suffix? start term).Inertly s := by
  refine inertly_current_bind ?_
  dsimp only
  split_ifs with hpoint hcall hproject
  · exact inertly_member hpoint fun _ _ => inertly_closing_bind (.pure _)
  · exact (inertly_arguments hp _ s).bind fun _ _ => inertly_closing_bind (.pure _)
  · refine (inertly_advance (.of_label hproject (by decide))).bind fun _ s => ?_
    refine inertly_identifier.bind fun _ s => inertly_label_bind ?_
    split_ifs
    · exact (inertly_arguments hp _ s).bind fun _ _ => inertly_closing_bind (.pure _)
    · exact (Inertly.pure _).bind fun _ _ => inertly_closing_bind (.pure _)
  · exact .pure none

theorem inertly_reference (s : TokenStream) : p.reference.Inertly s := by
  rw [reference_eq]
  refine inertly_current_bind ?_
  have hprimary : (p.primary s.current).Inertly s := by
    unfold primary
    split_ifs with hparenthesis hdecorator
    · exact inertly_parenthesized hp hparenthesis
    · exact inertly_decorator hp hdecorator
    · exact inertly_atom s
  exact hprimary.bind fun term _ => inertly_iterate (inertly_suffix? hp _) term

theorem inertly_unary (s : TokenStream) : p.unary.Inertly s := by
  refine inertly_current_bind ?_
  split
  · exact inertly_reference hp s
  · next op hop =>
    have hlabel : s.current.label ∉ ["projection", "."] := fun hmem => by
      have hnone : ∀ text ∈ ["projection", "."], unaryOp? text = none := by decide
      rw [hnone _ hmem] at hop
      cases hop
    exact (inertly_advance (.of_label rfl hlabel)).bind fun _ s => (hp.operand s).bind fun _ _ =>
      inertly_closing_bind (.pure _)

omit hp in
theorem inertly_chain {ops : List (String × BinaryOp)} {operand : Parse Expr}
    (hops : ∀ text ∈ ["projection", "."], ops.lookup text = none)
    (hoperand : ∀ s, operand.Inertly s) (s : TokenStream) : (chain ops operand).Inertly s := by
  refine inertly_current_bind ((hoperand s).bind fun first _ => inertly_iterate ?_ first)
  intro lhs s
  refine inertly_current_bind ?_
  split
  · exact .pure none
  · next op hop =>
    have hlabel : s.current.label ∉ ["projection", "."] := fun hmem => by
      rw [hops _ hmem] at hop
      cases hop
    exact (inertly_advance (.of_label rfl hlabel)).bind fun _ s => (hoperand s).bind fun _ _ =>
      inertly_closing_bind (.pure _)

omit hp in
theorem inertly_chains {levels : List (List (String × BinaryOp))} {operand : Parse Expr}
    (hlevels : ∀ ops ∈ levels, ∀ text ∈ ["projection", "."], ops.lookup text = none)
    (hoperand : ∀ s, operand.Inertly s) : ∀ s, (chains levels operand).Inertly s := by
  induction levels with
  | nil => exact hoperand
  | cons ops levels ih =>
    obtain ⟨hops, hlevels⟩ := List.forall_mem_cons.mp hlevels
    exact inertly_chain hops (ih hlevels)

theorem inertly_expression (s : TokenStream) : p.expression.Inertly s :=
  inertly_chains (by decide) (inertly_unary hp) s

/-! ### Statements -/

omit hp in
theorem inertly_terminator (s : TokenStream) : terminator.Inertly s := by
  refine inertly_label_bind ?_
  split_ifs with hsemicolon
  · exact inertly_advance (.of_label hsemicolon (by decide))
  · exact .pure ()
  · exact inertly_fail _

theorem inertly_alternative (s : TokenStream) : p.alternative.Inertly s := by
  refine inertly_current_bind ?_
  split_ifs with hif
  · exact (hp.cond s hif).bind fun _ _ => inertly_closing_bind (.pure _)
  · exact hp.block s

theorem inertly_condition (hlabel : s.current.label = "if") : p.condition.Inertly s := by
  refine inertly_current_bind ?_
  refine (inertly_advance (.of_label hlabel (by decide))).bind fun _ s => ?_
  refine (hp.expr s).bind fun _ s => (hp.block s).bind fun _ s => inertly_label_bind ?_
  dsimp only
  split_ifs with helse
  · refine (inertly_advance (.of_label helse (by decide))).bind fun _ s => ?_
    exact (inertly_alternative hp s).bind fun _ _ => (Inertly.pure _).bind fun _ _ =>
      inertly_closing_bind (.pure _)
  · exact (Inertly.pure _).bind fun _ _ => inertly_closing_bind (.pure _)

theorem inertly_statement (s : TokenStream) : p.statement.Inertly s := by
  refine inertly_current_bind ?_
  split_ifs with hif hreturn
  · exact (inertly_condition hp hif).bind fun _ _ =>
      (inertly_skip (by decide)).bind fun _ _ => .pure _
  · refine (inertly_advance (.of_label hreturn (by decide))).bind fun _ s => ?_
    exact (inertly_expression hp s).bind fun _ _ => inertly_closing_bind
      ((inertly_terminator _).bind fun _ _ => .pure _)
  · exact (inertly_expression hp s).bind fun _ _ => inertly_closing_bind
      ((inertly_terminator _).bind fun _ _ => .pure _)

theorem inertly_statement? (stmts : List Stmt) (s : TokenStream) :
    (p.statement? stmts).Inertly s := by
  refine inertly_current_bind ?_
  split_ifs with hbrace hsemicolon
  · exact .pure none
  · exact (inertly_advance (.of_label hsemicolon (by decide))).bind fun _ _ => .pure _
  · exact inertly_fail _
  · exact (inertly_statement hp s).bind fun _ _ => .pure _

theorem inertly_braced (s : TokenStream) : p.braced.Inertly s := by
  refine inertly_current_bind ?_
  refine (inertly_expect _ (by decide)).bind fun _ s => ?_
  refine (inertly_iterate (inertly_statement? hp) []).bind fun _ s => ?_
  exact (inertly_expect _ (by decide)).bind fun _ _ => inertly_closing_bind (.pure _)

/-- **One level up.** -/
theorem inertly_next : p.next.Inertly where
  expr := inertly_expression hp
  operand := inertly_unary hp
  block := inertly_braced hp
  cond _ hlabel := inertly_condition hp hlabel

end Parts

end Parsers

theorem parsers_inertly : ∀ levels, (parsers levels).Inertly
  | 0 => ⟨fun _ => inertly_fail _, fun _ => inertly_fail _, fun _ => inertly_fail _,
      fun _ _ => inertly_fail _⟩
  | levels + 1 => Parsers.inertly_next (parsers_inertly levels)

/-! ### Directions and directives -/

namespace ProjectionTree

section Directions

variable {p : Parsers} (hp : p.Inertly) {s : TokenStream}
include hp

theorem inertly_direction (hlabel : s.current.label ∉ ["projection", "."]) :
    (direction p).Inertly s := by
  refine inertly_current_bind ?_
  refine (inertly_advance (.of_label rfl hlabel)).bind fun _ s => inertly_label_bind ?_
  dsimp only
  split_ifs
  · exact (Parsers.inertly_parameters _ s).bind fun _ s => (hp.block s).bind fun _ _ =>
      inertly_closing_bind (.pure _)
  · exact (Inertly.pure _).bind fun _ s => (hp.block s).bind fun _ _ =>
      inertly_closing_bind (.pure _)

theorem inertly_direction? (read : Option DirectionTree × Option DirectionTree) (s : TokenStream) :
    (direction? p read).Inertly s := by
  refine inertly_current_bind ?_
  split_ifs with hbrace hto hforward hfrom hbackward
  · exact .pure none
  · exact inertly_fail _
  · exact (inertly_direction hp (by rw [hto]; decide)).bind fun _ _ => .pure _
  · exact inertly_fail _
  · exact (inertly_direction hp (by rw [hfrom]; decide)).bind fun _ _ => .pure _
  · exact inertly_fail _

end Directions

theorem inertly_directives (s : TokenStream) : directives.Inertly s := by
  have hstrings : ∀ s, Inertly (do
      iterate (fun () => do
        if (← current).kind ≠ .string then return none
        advance
        return some ()) ()
      return some ()) s := by
    intro s
    refine (inertly_iterate (fun _ s => inertly_current_bind ?_) ()).bind fun _ _ => .pure _
    split_ifs with hkind
    · exact .pure none
    · rw [not_not] at hkind
      exact (inertly_advance (.of_kind hkind (by decide) (by decide))).bind fun _ _ => .pure _
  refine inertly_iterate (fun _ s => inertly_label_bind ?_) ()
  split_ifs with hmark
  · exact .pure none
  · rw [not_not] at hmark
    refine (inertly_advance (.of_label hmark (by decide))).bind fun _ s => ?_
    refine inertly_identifier.bind fun directive s => ?_
    dsimp only
    split_ifs
    · exact (inertly_failAt _ _).bind fun _ s => hstrings s
    · exact hstrings s

end ProjectionTree

end SchemaProjection
