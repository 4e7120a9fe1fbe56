import SchemaProjection.Proofs.Grammar.Declarations
import SchemaProjection.Proofs.Grammar.Progress

/-!
# Reading ends

The parsers for the parts are taken from some level, and that level is deep enough: at level `n` they
agree with those of any deeper level on all streams with fewer than `n` tokens behind the current one
(`parsers_agree`). For each part of the grammar this is said one level up, where a token has been
taken in front of each part that it contains.

The rounds of all loops of the grammar (`Parsers.Round`) take a token or end their loop, at whatever
level. So as many levels as a source has characters suffice for it, and as many rounds as there are
tokens suffice for each loop (`Source.reading_ends`).
-/

namespace SchemaProjection

open Parse TokenStream

namespace Parsers

variable {p q : Parsers} {n : Nat} {s : TokenStream}

/-- **Parsers for the parts that agree on short streams**, and take a token. -/
structure Agree (n : Nat) (p q : Parsers) : Prop where
  expr : ∀ s, p.expr.Agrees n (fun _ => 1) q.expr s
  operand : ∀ s, p.operand.Agrees n (fun _ => 1) q.operand s
  block : ∀ s, p.block.Agrees n (fun _ => 1) q.block s
  cond : ∀ s, s.current.label = "if" → p.cond.Agrees n (fun _ => 1) q.cond s

/-! ### Operands -/

theorem agrees_atom (s : TokenStream) : atom.Agrees n (fun _ => 1) atom s := by
  refine agrees_current_bind ?_
  split
  · next hkind => exact (agrees_advance_of_kind hkind (by decide)).followed fun _ _ => .pure rfl
  · next hkind =>
    split
    · exact (agrees_advance_of_kind hkind (by decide)).followed fun _ _ => .pure rfl
    · exact agrees_fail SyntaxCause.noConfusion
  · next hkind =>
    split_ifs
    · exact (agrees_advance_of_kind hkind (by decide)).followed fun _ _ => .pure rfl
    · exact agrees_identifier.followed fun _ _ => .pure rfl
  · exact agrees_fail SyntaxCause.noConfusion

theorem agrees_parameters (context : GrammarContext) (s : TokenStream) :
    (parameters context).Agrees (n + 1) (fun _ => 1) (parameters context) s :=
  agrees_listOf false context fun _ => agrees_identifier

section Parts

variable (h : p.Agree n q)
include h

theorem agrees_arguments (context : GrammarContext) (s : TokenStream) :
    (p.arguments context).Agrees (n + 1) (fun _ => 1) (q.arguments context) s :=
  agrees_listOf true context h.expr

/-- Where there is no lambda, nothing is taken. -/
theorem agrees_lambda? (s : TokenStream) : p.lambda?.Agrees (n + 1) perRound q.lambda? s := by
  have hnone : Agrees (n + 1) perRound (pure none : Parse (Option Expr)) (pure none) s := .pure rfl
  cases hrun : (parameters .lambdaParameters).run s with
  | error fault =>
    -- the fault is not reported, be it what it may
    refine hnone.of_run ?_ ?_ <;> rw [run_lambda?, hrun] <;> rfl
  | ok read =>
    obtain ⟨params, behind⟩ := read
    by_cases harrow : behind.current.label = "=>"
    · -- the arrow is read behind the parameters
      let body (r : Parsers) (params : List Word) : Parse (Option Expr) := do
        advance
        let body ← r.block
        return some (.lambda (← closing s.current.span) params body)
      have hbody : Agrees (n + 1) (fun _ => 1) (parameters .lambdaParameters >>= body p)
          (parameters .lambdaParameters >>= body q) s := by
        refine (agrees_parameters _ s).bind_of_run fun params' s' hrun' _ => ?_
        cases hrun.symm.trans hrun'
        refine (agrees_advance_of_label harrow (by decide)).bind fun _ s => ?_
        exact (h.block s).bind fun _ _ => agrees_closing_bind (.pure rfl)
      refine hbody.round.of_run ?_ ?_ <;>
        rw [run_lambda?, StateT.run_bind, hrun] <;> exact if_neg (not_not_intro harrow)
    · refine hnone.of_run ?_ ?_ <;> rw [run_lambda?, hrun] <;> exact if_pos harrow

theorem agrees_parenthesized (hlabel : s.current.label = "(") :
    p.parenthesized.Agrees (n + 1) (fun _ => 1) q.parenthesized s := by
  refine (agrees_lambda? h s).bind_of_run fun lambda s' hrun _ => ?_
  cases lambda with
  | some lambda => exact .pure rfl
  | none =>
    -- the parenthesis is still there, and is taken before the expression
    obtain rfl := eq_of_lambda?_none hrun
    exact (agrees_advance_of_label hlabel (by decide)).next fun _ s => (h.expr s).bind fun _ _ =>
      (agrees_expect _ (by decide)).bind fun _ _ => .pure rfl

theorem agrees_decorator (hlabel : s.current.label = "@") :
    p.decorator.Agrees (n + 1) (fun _ => 1) q.decorator s := by
  refine agrees_current_bind ?_
  refine (agrees_advance_of_label hlabel (by decide)).next fun _ s => ?_
  refine agrees_identifier.bind fun _ s => ?_
  refine (agrees_arguments h _ s).lower.bind fun _ _ => ?_
  exact agrees_closing_bind (.pure rfl)

theorem agrees_suffix? (start : Nat) (term : Expr) (s : TokenStream) :
    (p.suffix? start term).Agrees (n + 1) perRound (q.suffix? start term) s := by
  refine agrees_current_bind ?_
  dsimp only
  split_ifs with hpoint hcall hproject
  · refine Agrees.round ((agrees_advance_of_label hpoint (by decide)).next fun _ _ => ?_)
    exact agrees_memberName.bind fun _ _ => agrees_closing_bind (.pure rfl)
  · exact Agrees.round ((agrees_arguments h _ s).next fun _ _ => agrees_closing_bind (.pure rfl))
  · refine Agrees.round ((agrees_advance_of_label hproject (by decide)).next fun _ _ => ?_)
    refine agrees_identifier.bind fun _ s => agrees_label_bind ?_
    split_ifs
    · exact (agrees_arguments h _ s).lower.bind fun _ _ => agrees_closing_bind (.pure rfl)
    · exact agrees_pure_bind (agrees_closing_bind (.pure rfl))
  · exact .pure rfl

theorem agrees_reference (s : TokenStream) :
    p.reference.Agrees (n + 1) (fun _ => 1) q.reference s := by
  rw [reference_eq, reference_eq]
  refine agrees_current_bind ?_
  have hprimary : (p.primary s.current).Agrees (n + 1) (fun _ => 1) (q.primary s.current) s := by
    unfold primary
    split_ifs with hparenthesis hdecorator
    · exact agrees_parenthesized h hparenthesis
    · exact agrees_decorator h hdecorator
    · exact agrees_atom s
  exact hprimary.followed fun term _ =>
    agrees_iterate (fun term s => agrees_suffix? h _ term s) term

theorem agrees_unary (s : TokenStream) : p.unary.Agrees (n + 1) (fun _ => 1) q.unary s := by
  refine agrees_current_bind ?_
  split
  · exact agrees_reference h s
  · next op hop =>
    -- the end token is not an operator, as it has no label
    have hlabel : s.current.label ≠ "" := fun hlabel => by
      rw [hlabel] at hop
      cases hop
    refine (agrees_advance_of_label rfl hlabel).next fun _ s => (h.operand s).bind fun _ _ => ?_
    exact agrees_closing_bind (.pure rfl)

end Parts

/-! ### Binary operators -/

section Chains

variable {bound : Nat} {ops : List (String × BinaryOp)} {operand operand' : Parse Expr}

theorem agrees_binary? (hops : ops.lookup "" = none)
    (hoperand : ∀ s, operand.Agrees bound (fun _ => 1) operand' s) (start : Nat) (lhs : Expr)
    (s : TokenStream) :
    (binary? ops operand start lhs).Agrees bound perRound (binary? ops operand' start lhs) s := by
  refine agrees_current_bind ?_
  split
  · exact .pure rfl
  · next op hop =>
    have hlabel : s.current.label ≠ "" := fun hlabel => by
      rw [hlabel, hops] at hop
      cases hop
    refine Agrees.round ((agrees_advance_of_label rfl hlabel).followed fun _ s => ?_)
    exact (hoperand s).bind fun _ _ => agrees_closing_bind (.pure rfl)

theorem agrees_chain (hops : ops.lookup "" = none)
    (hoperand : ∀ s, operand.Agrees bound (fun _ => 1) operand' s) (s : TokenStream) :
    (chain ops operand).Agrees bound (fun _ => 1) (chain ops operand') s :=
  agrees_current_bind <| (hoperand s).followed fun first _ =>
    agrees_iterate (fun lhs s => agrees_binary? hops hoperand _ lhs s) first

theorem agrees_chains {levels : List (List (String × BinaryOp))}
    (hlevels : ∀ ops ∈ levels, ops.lookup "" = none)
    (hoperand : ∀ s, operand.Agrees bound (fun _ => 1) operand' s) :
    ∀ s, (chains levels operand).Agrees bound (fun _ => 1) (chains levels operand') s := by
  induction levels with
  | nil => exact hoperand
  | cons ops levels ih =>
    obtain ⟨hops, hlevels⟩ := List.forall_mem_cons.mp hlevels
    exact agrees_chain hops (ih hlevels)

/-- No operator has an empty label. -/
theorem lookup_binaryLevels : ∀ ops ∈ binaryLevels, ops.lookup "" = none := by decide

end Chains

/-! ### Statements -/

theorem agrees_terminator (s : TokenStream) :
    terminator.Agrees n (fun _ => 0) terminator s := by
  refine agrees_label_bind ?_
  split_ifs with hsemicolon
  · exact (agrees_advance_of_label hsemicolon (by decide)).uncounted
  · exact .pure rfl
  · exact agrees_fail SyntaxCause.noConfusion

section Parts

variable (h : p.Agree n q)
include h

theorem agrees_expression (s : TokenStream) :
    p.expression.Agrees (n + 1) (fun _ => 1) q.expression s :=
  agrees_chains lookup_binaryLevels (agrees_unary h) s

theorem agrees_alternative (s : TokenStream) :
    p.alternative.Agrees n (fun _ => 1) q.alternative s := by
  refine agrees_current_bind ?_
  split_ifs with hif
  · exact (h.cond s hif).followed fun _ _ => agrees_closing_bind (.pure rfl)
  · exact h.block s

theorem agrees_condition (s : TokenStream) (hlabel : s.current.label = "if") :
    p.condition.Agrees (n + 1) (fun _ => 1) q.condition s := by
  refine agrees_current_bind ((agrees_advance_of_label hlabel (by decide)).next fun _ s => ?_)
  refine (h.expr s).bind fun _ s => (h.block s).bind fun _ s => agrees_label_bind ?_
  dsimp only
  split_ifs with helse
  · refine (agrees_advance_of_label helse (by decide)).bind fun _ s => ?_
    exact (agrees_alternative h s).bind fun _ _ =>
      agrees_pure_bind (agrees_closing_bind (.pure rfl))
  · exact agrees_pure_bind (agrees_closing_bind (.pure rfl))

theorem agrees_statement (s : TokenStream) :
    p.statement.Agrees (n + 1) (fun _ => 1) q.statement s := by
  have hexpression : ∀ (make : Span → Expr → Stmt) (span : Span) (s : TokenStream),
      Agrees (n + 1) (fun _ => 1)
        (do
          let e ← p.expression
          let span ← closing span
          terminator
          return make span e)
        (do
          let e ← q.expression
          let span ← closing span
          terminator
          return make span e) s := by
    intro make span s
    refine (agrees_expression h s).followed fun _ s => agrees_closing_bind ?_
    exact (agrees_terminator s).bind fun _ _ => .pure rfl
  refine agrees_current_bind ?_
  split_ifs with hif hreturn
  · exact (agrees_condition h s hif).followed fun _ _ =>
      (agrees_skip (by decide)).bind fun _ _ => .pure rfl
  · refine (agrees_advance_of_label hreturn (by decide)).followed fun _ s => ?_
    exact (hexpression .ret _ s).uncounted
  · exact hexpression .expr _ s

theorem agrees_statement? (stmts : List Stmt) (s : TokenStream) :
    (p.statement? stmts).Agrees (n + 1) perRound (q.statement? stmts) s := by
  refine agrees_current_bind ?_
  split_ifs with hbrace hsemicolon
  · exact .pure rfl
  · exact Agrees.round ((agrees_advance_of_label hsemicolon (by decide)).followed fun _ _ =>
      .pure rfl)
  · exact agrees_fail SyntaxCause.noConfusion
  · exact Agrees.round ((agrees_statement h s).followed fun _ _ => .pure rfl)

theorem agrees_braced (s : TokenStream) : p.braced.Agrees (n + 1) (fun _ => 1) q.braced s := by
  refine agrees_current_bind ((agrees_expect _ (by decide)).followed fun _ s => ?_)
  refine (agrees_iterate (fun stmts s => agrees_statement? h stmts s) []).bind fun _ s => ?_
  exact (agrees_expect _ (by decide)).bind fun _ _ => agrees_closing_bind (.pure rfl)

/-- **One level up.** -/
theorem Agree.next : p.next.Agree (n + 1) q.next where
  expr := agrees_expression h
  operand := agrees_unary h
  block := agrees_braced h
  cond := agrees_condition h

end Parts

/-! ### Levels -/

/-- What is taken does not depend on what it agrees with. -/
theorem Agree.zero {p' : Parsers} (h : p.Agree n p') (q : Parsers) : p.Agree 0 q where
  expr s := (h.expr s).zero _
  operand s := (h.operand s).zero _
  block s := (h.block s).zero _
  cond s hlabel := (h.cond s hlabel).zero _

end Parsers

/-- **Deep enough levels agree**: as many levels as there are tokens behind the current one, and one
more. -/
theorem parsers_agree {n levels levels' : Nat} (h : n ≤ levels) (h' : n ≤ levels') :
    (parsers levels).Agree n (parsers levels') := by
  induction levels generalizing n levels' with
  | zero =>
    -- no stream is so short that level zero were asked to read it
    obtain rfl : n = 0 := Nat.le_zero.mp h
    exact ⟨fun _ => agrees_nesting, fun _ => agrees_nesting, fun _ => agrees_nesting,
      fun _ _ => agrees_nesting⟩
  | succ levels ih =>
    cases n with
    | zero => exact (ih (Nat.zero_le _) (Nat.zero_le levels)).next.zero _
    | succ n =>
      cases levels' with
      | zero => exact absurd h' (Nat.not_succ_le_zero n)
      | succ levels' => exact (ih (Nat.le_of_succ_le_succ h) (Nat.le_of_succ_le_succ h')).next

/-! ### Declarations -/

namespace ProjectionTree

/-- A string behind a directive. -/
def reason? (_ : Unit) : Parse (Option Unit) := do
  if (← current).kind ≠ .string then return none
  advance
  return some ()

/-- A directive and its strings. -/
def directive? (_ : Unit) : Parse (Option Unit) := do
  if (← label) ≠ "#" then return none
  advance
  let directive ← identifier
  if directive.text ≠ "suppress" then
    failAt directive.span (.unknownDirective directive.text)
  iterate reason? ()
  return some ()

theorem directives_eq : directives = iterate directive? () := rfl

variable {bound : Nat} {s : TokenStream}

theorem agrees_reason? : (reason? ()).Agrees bound perRound (reason? ()) s := by
  refine agrees_current_bind ?_
  split_ifs with hkind
  · exact .pure rfl
  · rw [not_not] at hkind
    exact Agrees.round ((agrees_advance_of_kind hkind (by decide)).followed fun _ _ => .pure rfl)

theorem agrees_directive? : (directive? ()).Agrees bound perRound (directive? ()) s := by
  have hreasons : ∀ s, Agrees bound (fun _ => 0)
      (iterate reason? () >>= fun _ => pure (some ())) (iterate reason? () >>= fun _ =>
        pure (some ())) s :=
    fun _ => (agrees_iterate (fun _ _ => agrees_reason?) ()).bind fun _ _ => .pure rfl
  refine agrees_label_bind ?_
  split_ifs with hmark
  · exact .pure rfl
  · rw [not_not] at hmark
    refine Agrees.round ((agrees_advance_of_label hmark (by decide)).followed fun _ _ => ?_)
    refine agrees_identifier.bind fun directive s => ?_
    have hfault : Agrees bound (fun _ => 0)
        (failAt directive.span (.unknownDirective directive.text) : Parse Unit)
        (failAt directive.span (.unknownDirective directive.text)) s :=
      agrees_failAt _ SyntaxCause.noConfusion
    dsimp only
    split_ifs
    · exact hfault.bind fun _ s => hreasons s
    · exact hreasons s

theorem agrees_directives (s : TokenStream) :
    directives.Agrees bound (fun _ => 0) directives s := by
  rw [directives_eq]
  exact agrees_iterate (fun _ _ => agrees_directive?) ()

section Parts

variable {p q : Parsers} {n : Nat} (h : p.Agree n q)
include h

theorem agrees_direction {text : String} (hlabel : s.current.label = text) (htext : text ≠ "") :
    (direction p).Agrees (n + 1) (fun _ => 1) (direction q) s := by
  refine agrees_current_bind ((agrees_advance_of_label hlabel htext).next fun _ s => ?_)
  refine agrees_label_bind ?_
  dsimp only
  split_ifs
  · refine (Parsers.agrees_parameters _ s).lower.bind fun _ s => ?_
    exact (h.block s).bind fun _ _ => agrees_closing_bind (.pure rfl)
  · exact agrees_pure_bind ((h.block s).bind fun _ _ => agrees_closing_bind (.pure rfl))

theorem agrees_direction? (read : Option DirectionTree × Option DirectionTree)
    (s : TokenStream) : (direction? p read).Agrees (n + 1) perRound (direction? q read) s := by
  refine agrees_current_bind ?_
  split_ifs with hbrace hto hforward hfrom hbackward
  · exact .pure rfl
  · exact agrees_fail SyntaxCause.noConfusion
  · exact Agrees.round ((agrees_direction h hto (by decide)).followed fun _ _ => .pure rfl)
  · exact agrees_fail SyntaxCause.noConfusion
  · exact Agrees.round ((agrees_direction h hfrom (by decide)).followed fun _ _ => .pure rfl)
  · exact agrees_fail SyntaxCause.noConfusion

theorem agrees_parse (s : TokenStream) : (parse p).Agrees (n + 1) (fun _ => 1) (parse q) s := by
  refine agrees_current_bind ((agrees_expect _ (by decide)).followed fun _ _ => ?_)
  refine agrees_identifier.bind fun _ _ => (agrees_expect _ (by decide)).bind fun _ _ => ?_
  refine agrees_identifier.bind fun _ _ => (agrees_expect _ (by decide)).bind fun _ _ => ?_
  refine (agrees_iterate (fun read s => agrees_direction? h read s) _).bind fun read _ => ?_
  exact (agrees_expect _ (by decide)).bind fun _ _ => agrees_closing_bind (.pure rfl)

theorem agrees_next? (trees : List ProjectionTree) (s : TokenStream) :
    (next? p trees).Agrees (n + 1) perRound (next? q trees) s := by
  refine (agrees_directives s).bind fun _ s => agrees_current_bind ?_
  split_ifs
  · -- directives in front of the end of the file do not make a round of their own
    exact .pure rfl
  · exact Agrees.round ((agrees_parse h s).followed fun _ _ =>
      (agrees_skip (by decide)).bind fun _ _ => .pure rfl)

theorem agrees_file (s : TokenStream) : (file p).Agrees (n + 1) (fun _ => 0) (file q) s :=
  (agrees_iterate (fun trees s => agrees_next? h trees s) []).bind fun _ _ => .pure rfl

end Parts

end ProjectionTree

/-! ### Rounds -/

/-- **The rounds of all loops of the grammar**, with the parsers for the parts as given. They read the
arguments of a call and the parameters of a lambda or a direction, the suffixes of a term, the operands
that the operators of a level join (which are made of the tighter levels), the statements of a block,
the directions of a declaration, directives and the strings behind them, and the declarations of a
file. -/
inductive Parsers.Round (p : Parsers) : {α : Type} → (α → Parse (Option α)) → Prop
  | arguments : Round p (nextItem true p.expr)
  | parameters : Round p (nextItem false identifier)
  | suffixes (start : Nat) : Round p (p.suffix? start)
  | operators {looser tighter : List (List (String × BinaryOp))} {ops : List (String × BinaryOp)}
    (start : Nat) : looser ++ ops :: tighter = binaryLevels →
    Round p (binary? ops (chains tighter p.unary) start)
  | statements : Round p p.statement?
  | directions : Round p (ProjectionTree.direction? p)
  | reasons : Round p ProjectionTree.reason?
  | directives : Round p ProjectionTree.directive?
  | projections : Round p (ProjectionTree.next? p)

/-- **A round takes a token, or ends its loop.** -/
theorem Parsers.Round.agrees {p : Parsers} {n : Nat} {α : Type} {round : α → Parse (Option α)}
    (hround : p.Round round) (h : p.Agree n p) (a : α) (s : TokenStream) :
    (round a).Agrees n perRound (round a) s := by
  cases hround with
  | arguments => exact agrees_nextItem true h.expr a
  | parameters => exact agrees_nextItem false (fun _ => agrees_identifier) a
  | suffixes start => exact (agrees_suffix? h start a s).lower
  | @operators looser tighter ops start hlevels =>
    -- the operands are chains of the tighter levels
    have hall := lookup_binaryLevels
    rw [← hlevels, List.forall_mem_append, List.forall_mem_cons] at hall
    have hoperand := agrees_chains hall.2.2 (agrees_unary h)
    exact (agrees_binary? hall.2.1 hoperand start a s).lower
  | statements => exact (agrees_statement? h a s).lower
  | directions => exact (ProjectionTree.agrees_direction? h a s).lower
  | reasons => exact ProjectionTree.agrees_reason?
  | directives => exact ProjectionTree.agrees_directive?
  | projections => exact (ProjectionTree.agrees_next? h a s).lower

/-! ### Sources -/

/-- **A stream that is left of a source.** -/
def TokenStream.LeftOf (source : Source) (s : TokenStream) : Prop :=
  ∃ token rest fault passed, source.tokens = (token :: rest, fault) ∧
    Consumed passed ⟨token, rest, fault, 0⟩ s

theorem TokenStream.LeftOf.sound {source : Source} {s : TokenStream} (h : s.LeftOf source) :
    s.Sound := by
  obtain ⟨token, rest, fault, passed, htokens, hconsumed⟩ := h
  exact hconsumed.sound (Source.sound_of_tokens htokens)

namespace Source

variable {source : Source} {levels : Nat} {α : Type} {entry : Parsers → Parse α}

/-- What is read of a source, if parts may nest so deep. -/
def readWithin (source : Source) (levels : Nat) (entry : Parsers → Parse α) :
    Except SyntaxFault (α × TokenStream) :=
  match source.tokens with
  | (token :: rest, fault) => (entry (parsers levels)).run ⟨token, rest, fault, 0⟩
  | ([], some fault) => .error fault.toSyntaxFault
  | ([], none) => .error ⟨.nesting, 1, 1⟩

theorem exists_leftOf_of_readWithin {read : α × TokenStream}
    (h : source.readWithin levels entry = .ok read) :
    ∃ s, s.LeftOf source ∧ (entry (parsers levels)).run s = .ok read := by
  rw [readWithin] at h
  split at h
  · next token rest fault htokens =>
    exact ⟨_, ⟨token, rest, fault, [], htokens, .refl _⟩, h⟩
  · cases h
  · cases h

/-- **Reading does not come to the bound on nesting**: with so many levels the same is read, and what
is reported is another fault. -/
structure Ends (source : Source) (levels : Nat) (entry : Parsers → Parse α) : Prop where
  read_eq : source.readWithin levels entry = source.read entry
  cause_ne : ∀ fault, source.readWithin levels entry = .error fault → fault.cause ≠ .nesting

theorem length_tokens_le (source : Source) : source.tokens.1.length ≤ source.text.length + 1 :=
  Cursor.length_tokens_le source.file _ (Cursor.ofSource source)

/-- **As many levels as there are characters suffice.** -/
theorem ends {taken : α → Nat}
    (hentry : ∀ {p q : Parsers} {n : Nat}, p.Agree n q →
      ∀ s, (entry p).Agrees (n + 1) taken (entry q) s)
    (hlevels : source.text.length ≤ levels) : source.Ends levels entry := by
  have hlength := source.length_tokens_le
  cases htokens : source.tokens with
  | mk tokens fault =>
    rw [htokens] at hlength
    cases tokens with
    | nil =>
      cases fault with
      | none => exact absurd htokens source.tokens_ne
      | some lexical =>
        refine ⟨by rw [readWithin, read, htokens], fun fault h => ?_⟩
        rw [readWithin, htokens] at h
        cases h
        exact SyntaxCause.noConfusion
    | cons token rest =>
      have hrest : rest.length ≤ levels := (Nat.le_of_succ_le_succ hlength).trans hlevels
      -- the level at which a source is read is two above the tokens behind the first
      have hagrees := hentry (parsers_agree hrest (Nat.le_add_right rest.length 2))
        ⟨token, rest, fault, 0⟩
      have hsound := sound_of_tokens htokens
      refine ⟨?_, fun fault' h => ?_⟩
      · rw [readWithin, read, htokens]
        exact hagrees.run_eq hsound (Nat.lt_succ_self _)
      · rw [readWithin, htokens] at h
        exact hagrees.cause_ne hsound (Nat.lt_succ_self _) fault' h

/-- **Reading ends**, be the source well formed or not. A token takes characters, unless it is the
end token, so no more steps than characters are needed for all tokens. A round of a loop takes a
token, or ends the loop, so no more rounds than tokens are needed. And no more levels than characters
are needed, whatever is read of the source. -/
theorem reading_ends (source : Source) :
    (∀ cursor token behind, Cursor.next source.file cursor = .ok (token, behind) →
      token.kind = .finish ∨ cursor.offset < behind.offset ∧
        ∃ passed, passed ≠ [] ∧ Cursor.Passed passed cursor behind) ∧
    (∀ steps, source.text.length < steps →
      (Cursor.ofSource source).tokens source.file steps = source.tokens) ∧
    (∀ (levels : Nat) {α : Type} (round : α → Parse (Option α)), (parsers levels).Round round →
      ∀ a s, s.LeftOf source →
        (∀ b s', (round a).run s = .ok (some b, s') →
          ∃ passed, passed ≠ [] ∧ Consumed passed s s') ∧
        ∀ tokens, s.rest.length ≤ tokens.length →
          (loop round tokens a).run s = (iterate round a).run s) ∧
    ∀ levels, source.text.length ≤ levels →
      source.Ends levels ProjectionTree.file ∧ source.Ends levels ProjectionTree.parse ∧
      source.Ends levels Parsers.braced ∧ source.Ends levels Parsers.statement ∧
      source.Ends levels Parsers.expression := by
  refine ⟨fun cursor token behind h => ?_, fun steps h => ?_, fun levels α round hround a s hs => ?_,
    fun levels h => ⟨ends ProjectionTree.agrees_file h, ends ProjectionTree.agrees_parse h,
      ends Parsers.agrees_braced h, ends Parsers.agrees_statement h,
      ends Parsers.agrees_expression h⟩⟩
  · refine (Cursor.passed_of_next h).imp_right fun ⟨passed, hne, hpassed⟩ => ?_
    exact ⟨hpassed.offset_lt hne, passed, hne, hpassed⟩
  · exact Cursor.tokens_eq_tokens h (Nat.lt_succ_self _)
  · -- what a round takes does not depend on how deep the parts may nest
    have hagree : (parsers levels).Agree 0 (parsers levels) :=
      parsers_agree (Nat.zero_le _) (Nat.zero_le _)
    refine ⟨fun b s' hrun => ?_, fun tokens htokens => ?_⟩
    · obtain ⟨passed, htaken, hconsumed⟩ :=
        (hround.agrees hagree a s).consumed hs.sound (some b) s' hrun
      exact ⟨passed, List.ne_nil_of_length_pos htaken, hconsumed⟩
    · exact loop_run_eq (hround.agrees hagree) a hs.sound htokens (Nat.le_refl _)

/-- A declaration and the beginning of another. The first round over the file takes tokens, and
the second reports what is missing, however deep the parts may nest. -/
theorem reading_ends_unfinished :
    let source : Source :=
      ⟨"t", "projection model#a \x7b to \x7b f((p) => \x7b ; \x7d, (1 - (2))) \x7d \x7d projection"⟩
    (∃ token behind, (Cursor.ofSource source).next "t" = .ok (token, behind) ∧
      token.kind = .name ∧ 0 < behind.offset) ∧
    (∃ s trees s', s.LeftOf source ∧
      (ProjectionTree.next? (parsers 70) []).run s = .ok (some trees, s') ∧
      ∃ passed, passed ≠ [] ∧ Consumed passed s s') ∧
    source.text.length ≤ 1000000 ∧
    ∃ fault, source.readWithin 1000000 ProjectionTree.file = .error fault ∧
      fault.cause = .missingName := by
  intro source
  have hfirst : ((Cursor.ofSource source).next "t").toOption.map (·.1.kind) = some .name := by
    decide +kernel
  have hround : (source.readWithin 70 (ProjectionTree.next? · [])).toOption.map (·.1.isSome) =
      some true := by decide +kernel
  have hlength : source.text.length ≤ 1000000 := by decide +kernel
  have hcause : (match source.read ProjectionTree.file with
      | .error fault => some fault.cause
      | .ok _ => none) = some .missingName := by decide +kernel
  obtain ⟨htoken, -, hrounds, hends⟩ := source.reading_ends
  refine ⟨?_, ?_, hlength, ?_⟩
  · cases hnext : (Cursor.ofSource source).next "t" with
    | error fault => rw [hnext] at hfirst; cases hfirst
    | ok taken =>
      obtain ⟨token, behind⟩ := taken
      rw [hnext] at hfirst
      have hkind : token.kind = .name := Option.some.inj hfirst
      have hne : token.kind ≠ .finish := fun hfinish => by
        rw [hkind] at hfinish
        cases hfinish
      exact ⟨token, behind, rfl, hkind, ((htoken _ token behind hnext).resolve_left hne).1⟩
  · cases hread : source.readWithin 70 (ProjectionTree.next? · []) with
    | error fault => rw [hread] at hround; cases hround
    | ok read =>
      obtain ⟨next, s'⟩ := read
      rw [hread] at hround
      cases next with
      | none => cases hround
      | some trees =>
        obtain ⟨s, hleft, hrun⟩ := exists_leftOf_of_readWithin hread
        exact ⟨s, trees, s', hleft, hrun, (hrounds 70 _ .projections [] s hleft).1 trees s' hrun⟩
  · cases hread : source.read ProjectionTree.file with
    | ok read => rw [hread] at hcause; cases hcause
    | error fault =>
      rw [hread] at hcause
      obtain ⟨hfile, -⟩ := hends 1000000 hlength
      exact ⟨fault, hfile.read_eq.trans hread, Option.some.inj hcause⟩

end Source

end SchemaProjection
