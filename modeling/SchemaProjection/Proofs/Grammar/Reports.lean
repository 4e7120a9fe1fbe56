import SchemaProjection.Proofs.Grammar.Consumption

/-!
# Where faults are reported

A parser that fails reports a place where a token stands, or the place of the fault behind the last
token (`Source.place_of_read`). Nothing is assumed of the parsers for the parts but the same
(`Parsers.Report`), so one property of places, whatever it is, goes through the whole grammar: if it
holds of the tokens and of the fault behind them, it holds of what is reported.
-/

namespace SchemaProjection

/-- A stream of which a property of places holds, given by line and column. -/
structure TokenStream.Within (P : Nat → Nat → Prop) (s : TokenStream) : Prop where
  tokens : ∀ token ∈ s.tokens, P token.span.line token.span.col
  fault : ∀ fault ∈ s.fault, P fault.line fault.col

namespace Parse

variable {P : Nat → Nat → Prop} {α β : Type} {x : Parse α} {f : α → Parse β} {s : TokenStream}

/-- **A parser that reports such a place** if it fails, and else leaves a stream of such places. -/
def Reports (P : Nat → Nat → Prop) (x : Parse α) (s : TokenStream) : Prop :=
  s.Within P →
    match x.run s with
    | .ok (_, s') => s'.Within P
    | .error fault => P fault.line fault.col

theorem Reports.pure (a : α) : Reports P (pure a) s := fun hs => hs

theorem Reports.bind_of_run (hx : Reports P x s)
    (hf : ∀ a s', x.run s = .ok (a, s') → Reports P (f a) s') : Reports P (x >>= f) s := by
  intro hs
  have hfirst := hx hs
  rw [StateT.run_bind]
  cases hrun : x.run s with
  | error fault =>
    rw [hrun] at hfirst
    exact hfirst
  | ok read =>
    obtain ⟨a, mid⟩ := read
    rw [hrun] at hfirst
    exact hf a mid hrun hfirst

theorem Reports.bind (hx : Reports P x s) (hf : ∀ a s, Reports P (f a) s) :
    Reports P (x >>= f) s :=
  hx.bind_of_run fun a s' _ => hf a s'

/-! ### Single tokens -/

theorem reports_failAt {span : Span} (hspan : s.Within P → P span.line span.col)
    (cause : SyntaxCause) : Reports P (failAt span cause : Parse α) s := hspan

theorem within_current (hs : s.Within P) : P s.current.span.line s.current.span.col :=
  hs.tokens s.current List.mem_cons_self

theorem reports_fail (cause : SyntaxCause) : Reports P (fail cause : Parse α) s := within_current

theorem reports_current_bind {g : Token → Parse α} (h : Reports P (g s.current) s) :
    Reports P (current >>= g) s := h

theorem reports_label_bind {g : String → Parse α} (h : Reports P (g s.current.label) s) :
    Reports P (label >>= g) s := h

theorem reports_closing_bind {span : Span} {g : Span → Parse α}
    (h : Reports P (g { span with stop := s.lastStop }) s) :
    Reports P (closing span >>= g) s := h

theorem reports_advance : Reports P advance s := by
  intro hs
  obtain ⟨current, rest, fault, lastStop⟩ := s
  cases rest with
  | cons token rest => exact ⟨fun t ht => hs.tokens t (List.mem_cons_of_mem current ht), hs.fault⟩
  | nil =>
    cases fault with
    | some fault => exact hs.fault fault rfl
    | none => exact ⟨hs.tokens, hs.fault⟩

theorem reports_expect (text : String) (context : GrammarContext) :
    Reports P (expect text context) s := by
  refine reports_label_bind ?_
  split
  · exact reports_advance
  · exact reports_fail _

theorem reports_skip (text : String) : Reports P (skip text) s := by
  refine reports_label_bind ?_
  split
  · exact reports_advance
  · exact .pure _

theorem reports_identifier : Reports P identifier s := by
  refine reports_current_bind ?_
  split_ifs
  · exact reports_fail _
  · exact reports_fail _
  · exact reports_advance.bind fun _ _ => .pure _

/-- An identifier keeps its place. -/
theorem reports_identifier_bind {g : Word → Parse α}
    (hg : ∀ w s, P w.span.line w.span.col → Reports P (g w) s) :
    Reports P (identifier >>= g) s := by
  intro hs
  have hplace := within_current hs
  refine Reports.bind_of_run reports_identifier (fun w s' h => hg w s' ?_) hs
  obtain ⟨rfl, -⟩ := read_of_identifier h
  exact hplace

theorem reports_memberName : Reports P memberName s := by
  refine reports_current_bind ?_
  split_ifs
  · exact reports_fail _
  · exact reports_advance.bind fun _ _ => .pure _

/-! ### Loops and lists -/

theorem reports_loop {round : α → Parse (Option α)} (hround : ∀ a s, Reports P (round a) s)
    (tokens : List Token) (a : α) (s : TokenStream) : Reports P (loop round tokens a) s := by
  induction tokens generalizing a s with
  | nil =>
    refine (hround a s).bind fun next s => ?_
    cases next with
    | none => exact .pure a
    | some next => exact reports_fail _
  | cons token tokens ih =>
    refine (hround a s).bind fun next s => ?_
    cases next with
    | none => exact .pure a
    | some next => exact ih next s

theorem reports_iterate {round : α → Parse (Option α)} (hround : ∀ a s, Reports P (round a) s)
    (a : α) : Reports P (iterate round a) s :=
  reports_loop hround s.rest a s

theorem reports_nextItem {item : Parse α} (endsEarly : Bool) (hitem : ∀ s, Reports P item s)
    (items : List α) (s : TokenStream) : Reports P (nextItem endsEarly item items) s := by
  refine reports_label_bind ?_
  split_ifs
  · exact .pure none
  · refine reports_advance.bind fun _ s => reports_current_bind ?_
    split_ifs
    · exact .pure _
    · exact (hitem s).bind fun _ _ => .pure _

theorem reports_listOf {item : Parse α} (endsEarly : Bool) (context : GrammarContext)
    (hitem : ∀ s, Reports P item s) (s : TokenStream) :
    Reports P (listOf endsEarly context item) s := by
  have hclose : ∀ (items : List α) (s : TokenStream),
      Reports P (expect ")" context >>= fun _ => Pure.pure items.reverse) s :=
    fun items s => (reports_expect ")" context).bind fun _ _ => .pure _
  refine (reports_expect "(" context).bind fun _ s => reports_label_bind ?_
  dsimp only
  split_ifs
  · exact hclose [] s
  · exact (hitem s).bind fun first s =>
      (reports_iterate (reports_nextItem endsEarly hitem) [first]).bind hclose

end Parse

open Parse

namespace Parsers

variable {P : Nat → Nat → Prop} {p : Parsers} {s : TokenStream}

/-- **What is assumed of the parsers for the parts.** -/
structure Report (P : Nat → Nat → Prop) (p : Parsers) : Prop where
  expr : ∀ s, p.expr.Reports P s
  operand : ∀ s, p.operand.Reports P s
  block : ∀ s, p.block.Reports P s
  cond : ∀ s, p.cond.Reports P s

/-! ### Operands -/

theorem reports_atom (s : TokenStream) : atom.Reports P s := by
  refine reports_current_bind ?_
  split
  · exact reports_advance.bind fun _ _ => .pure _
  · split
    · exact reports_advance.bind fun _ _ => .pure _
    · exact reports_fail _
  · split_ifs
    · exact reports_advance.bind fun _ _ => .pure _
    · exact reports_identifier.bind fun _ _ => .pure _
  · exact reports_fail _

theorem reports_parameters (context : GrammarContext) (s : TokenStream) :
    (parameters context).Reports P s :=
  reports_listOf false context (fun _ => reports_identifier) s

section Parts

variable (hp : p.Report P)
include hp

theorem reports_arguments (context : GrammarContext) (s : TokenStream) :
    (p.arguments context).Reports P s :=
  reports_listOf true context hp.expr s

/-- A list of parameters that cannot be read is not reported. -/
theorem reports_lambda? (s : TokenStream) : p.lambda?.Reports P s := by
  intro hs
  have hparameters := reports_parameters .lambdaParameters s hs
  rw [run_lambda?]
  cases hrun : (parameters .lambdaParameters).run s with
  | error fault => exact hs
  | ok read =>
    obtain ⟨params, behind⟩ := read
    rw [hrun] at hparameters
    dsimp only
    split_ifs
    · exact hs
    · refine Reports.bind (P := P) reports_advance (fun _ s => ?_) hparameters
      exact (hp.block s).bind fun _ _ => reports_closing_bind (.pure _)

theorem reports_parenthesized (s : TokenStream) : p.parenthesized.Reports P s := by
  refine (reports_lambda? hp s).bind fun lambda s => ?_
  cases lambda with
  | some lambda => exact .pure lambda
  | none =>
    exact reports_advance.bind fun _ s => (hp.expr s).bind fun _ _ =>
      (reports_expect _ _).bind fun _ _ => .pure _

theorem reports_decorator (s : TokenStream) : p.decorator.Reports P s := by
  refine reports_current_bind (reports_advance.bind fun _ s => reports_identifier.bind ?_)
  exact fun _ s => (reports_arguments hp _ s).bind fun _ _ => reports_closing_bind (.pure _)

theorem reports_suffix? (start : Nat) (term : Expr) (s : TokenStream) :
    (p.suffix? start term).Reports P s := by
  refine reports_current_bind ?_
  dsimp only
  split_ifs
  · exact reports_advance.bind fun _ _ => reports_memberName.bind fun _ _ =>
      reports_closing_bind (.pure _)
  · exact (reports_arguments hp _ s).bind fun _ _ => reports_closing_bind (.pure _)
  · refine reports_advance.bind fun _ _ => reports_identifier.bind fun _ s => ?_
    refine reports_label_bind ?_
    split_ifs
    · exact (reports_arguments hp _ s).bind fun _ _ => reports_closing_bind (.pure _)
    · exact (Reports.pure _).bind fun _ _ => reports_closing_bind (.pure _)
  · exact .pure none

theorem reports_reference (s : TokenStream) : p.reference.Reports P s := by
  rw [reference_eq]
  refine reports_current_bind ?_
  have hprimary : (p.primary s.current).Reports P s := by
    unfold primary
    split_ifs
    · exact reports_parenthesized hp s
    · exact reports_decorator hp s
    · exact reports_atom s
  exact hprimary.bind fun term _ => reports_iterate (reports_suffix? hp _) term

theorem reports_unary (s : TokenStream) : p.unary.Reports P s := by
  refine reports_current_bind ?_
  split
  · exact reports_reference hp s
  · exact reports_advance.bind fun _ s => (hp.operand s).bind fun _ _ =>
      reports_closing_bind (.pure _)

omit hp in
theorem reports_chain {ops : List (String × BinaryOp)} {operand : Parse Expr}
    (hoperand : ∀ s, operand.Reports P s) (s : TokenStream) : (chain ops operand).Reports P s := by
  refine reports_current_bind ((hoperand s).bind fun first _ => reports_iterate ?_ first)
  intro lhs s
  refine reports_current_bind ?_
  split
  · exact .pure none
  · exact reports_advance.bind fun _ s => (hoperand s).bind fun _ _ =>
      reports_closing_bind (.pure _)

omit hp in
theorem reports_chains {operand : Parse Expr} (hoperand : ∀ s, operand.Reports P s)
    (levels : List (List (String × BinaryOp))) : ∀ s, (chains levels operand).Reports P s := by
  induction levels with
  | nil => exact hoperand
  | cons ops levels ih => exact reports_chain ih

theorem reports_expression (s : TokenStream) : p.expression.Reports P s :=
  reports_chains (reports_unary hp) binaryLevels s

/-! ### Statements -/

omit hp in
theorem reports_terminator (s : TokenStream) : terminator.Reports P s := by
  refine reports_label_bind ?_
  split_ifs
  · exact reports_advance
  · exact .pure ()
  · exact reports_fail _

theorem reports_alternative (s : TokenStream) : p.alternative.Reports P s := by
  refine reports_current_bind ?_
  split_ifs
  · exact (hp.cond s).bind fun _ _ => reports_closing_bind (.pure _)
  · exact hp.block s

theorem reports_condition (s : TokenStream) : p.condition.Reports P s := by
  refine reports_current_bind (reports_advance.bind fun _ s => (hp.expr s).bind fun _ s => ?_)
  refine (hp.block s).bind fun _ s => reports_label_bind ?_
  dsimp only
  split_ifs
  · refine reports_advance.bind fun _ s => (reports_alternative hp s).bind fun _ _ => ?_
    exact (Reports.pure _).bind fun _ _ => reports_closing_bind (.pure _)
  · exact (Reports.pure _).bind fun _ _ => reports_closing_bind (.pure _)

theorem reports_statement (s : TokenStream) : p.statement.Reports P s := by
  have hexpression : ∀ (span : Span) (make : Span → Expr → Stmt) (s : TokenStream),
      (do
        let e ← p.expression
        let span ← closing span
        terminator
        return make span e : Parse Stmt).Reports P s := by
    intro span make s
    refine (reports_expression hp s).bind fun _ s => reports_closing_bind ?_
    exact (reports_terminator s).bind fun _ _ => .pure _
  refine reports_current_bind ?_
  split_ifs
  · exact (reports_condition hp s).bind fun _ _ => (reports_skip _).bind fun _ _ => .pure _
  · exact reports_advance.bind fun _ s => hexpression _ .ret s
  · exact hexpression _ .expr s

theorem reports_statement? (stmts : List Stmt) (s : TokenStream) :
    (p.statement? stmts).Reports P s := by
  refine reports_current_bind ?_
  split_ifs
  · exact .pure none
  · exact reports_advance.bind fun _ _ => .pure _
  · exact reports_fail _
  · exact (reports_statement hp s).bind fun _ _ => .pure _

theorem reports_braced (s : TokenStream) : p.braced.Reports P s := by
  refine reports_current_bind ((reports_expect _ _).bind fun _ s => ?_)
  refine (reports_iterate (reports_statement? hp) []).bind fun _ s => ?_
  exact (reports_expect _ _).bind fun _ _ => reports_closing_bind (.pure _)

/-- **One level up.** -/
theorem report_next : p.next.Report P where
  expr := reports_expression hp
  operand := reports_unary hp
  block := reports_braced hp
  cond := reports_condition hp

end Parts

end Parsers

theorem parsers_report (P : Nat → Nat → Prop) : ∀ levels, (parsers levels).Report P
  | 0 => ⟨fun _ => reports_fail _, fun _ => reports_fail _, fun _ => reports_fail _,
      fun _ => reports_fail _⟩
  | levels + 1 => Parsers.report_next (parsers_report P levels)

/-! ### Declarations -/

namespace ProjectionTree

variable {P : Nat → Nat → Prop}

theorem reports_directives (s : TokenStream) : directives.Reports P s := by
  have hstrings : ∀ s, Reports P (do
      iterate (fun () => do
        if (← current).kind ≠ .string then return none
        advance
        return some ()) ()
      return some ()) s := by
    intro s
    refine (reports_iterate (fun _ s => reports_current_bind ?_) ()).bind fun _ _ => .pure _
    split_ifs
    · exact .pure none
    · exact reports_advance.bind fun _ _ => .pure _
  refine reports_iterate (fun _ s => reports_label_bind ?_) ()
  split_ifs
  · exact .pure none
  · -- an unknown directive is reported where its name stands, when that has been consumed
    refine reports_advance.bind fun _ s => reports_identifier_bind fun directive s hplace => ?_
    dsimp only
    split_ifs
    · exact (reports_failAt (fun _ => hplace) _).bind fun _ s => hstrings s
    · exact hstrings s

section Parts

variable {p : Parsers} (hp : p.Report P)
include hp

theorem reports_direction (s : TokenStream) : (direction p).Reports P s := by
  refine reports_current_bind (reports_advance.bind fun _ s => reports_label_bind ?_)
  dsimp only
  split_ifs
  · exact (Parsers.reports_parameters _ s).bind fun _ s => (hp.block s).bind fun _ _ =>
      reports_closing_bind (.pure _)
  · exact (Reports.pure _).bind fun _ s => (hp.block s).bind fun _ _ =>
      reports_closing_bind (.pure _)

theorem reports_direction? (read : Option DirectionTree × Option DirectionTree)
    (s : TokenStream) : (direction? p read).Reports P s := by
  refine reports_current_bind ?_
  split_ifs
  · exact .pure none
  · exact reports_fail _
  · exact (reports_direction hp s).bind fun _ _ => .pure _
  · exact reports_fail _
  · exact (reports_direction hp s).bind fun _ _ => .pure _
  · exact reports_fail _

theorem reports_parse (s : TokenStream) : (parse p).Reports P s := by
  refine reports_current_bind ((reports_expect _ _).bind fun _ _ => ?_)
  refine reports_identifier.bind fun _ _ => (reports_expect _ _).bind fun _ _ => ?_
  refine reports_identifier.bind fun _ _ => (reports_expect _ _).bind fun _ _ => ?_
  refine (reports_iterate (reports_direction? hp) _).bind fun read _ => ?_
  exact (reports_expect _ _).bind fun _ _ => reports_closing_bind (.pure _)

theorem reports_next? (trees : List ProjectionTree) (s : TokenStream) :
    (next? p trees).Reports P s := by
  refine (reports_directives s).bind fun _ s => reports_current_bind ?_
  split_ifs
  · exact .pure none
  · exact (reports_parse hp s).bind fun _ _ => (reports_skip _).bind fun _ _ => .pure _

theorem reports_file (s : TokenStream) : (file p).Reports P s :=
  (reports_iterate (reports_next? hp) []).bind fun _ _ => .pure _

end Parts

end ProjectionTree

/-! ### Sources -/

/-- A place of a source that is reported: a token stands there, or the fault behind the tokens. -/
def Source.Place (source : Source) (line col : Nat) : Prop :=
  (∃ token ∈ source.tokens.1, token.span.line = line ∧ token.span.col = col) ∨
    ∃ fault ∈ source.tokens.2, fault.line = line ∧ fault.col = col

end SchemaProjection
