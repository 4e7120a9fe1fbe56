import SchemaProjection.Proofs.Grammar.Lexing
import SchemaProjection.Proofs.Grammar.Streams

/-!
# Printed expressions are read back

An expression is read back from its lexemes whatever stands behind them, unless that would continue
it (`Ends`). The proof goes by the number of lexemes, since a parser of one level reads what stands
behind a consumed lexeme with a parser of the level below. `Parsers.Covers` is what the level below
is good for.

On one level, three things are read without going down: a term with its suffixes (`reaches_term`),
operands joined by the operators of one level (`reaches_chain`), and from these, level by level, an
expression (`reads_chains`). The first two are left-nested, so they are read in rounds: what the
loop has read after some rounds is the tree that stands innermost on the left, and each further
round puts one more node around it.

What stands between parentheses is first tried as the parameters of a lambda. `Solid` is the reason
why this comes to nothing for an expression.
-/

namespace SchemaProjection

open Parse

variable {style : Style} {p : Parsers} {n level : Nat} {e : Expr} {l : Lexeme}
  {ls after : List Lexeme}

/-! ### Operators -/

theorem BinaryOp.lookup_symbol (op : BinaryOp) :
    Parsers.binaryLevels.flatten.lookup op.symbol = some op := by
  rcases op with op | op | op <;> cases op <;> rfl

theorem BinaryOp.symbol_inj {op op' : BinaryOp} (h : op.symbol = op'.symbol) : op = op' := by
  have hlookup := op.lookup_symbol
  rw [h, op'.lookup_symbol] at hlookup
  exact (Option.some.inj hlookup).symm

theorem BinaryOp.level_lt (op : BinaryOp) : op.level < 6 := by
  rcases op with op | op | op <;> cases op <;> decide

/-- The operators that bind with a given level. -/
def operators (level : Nat) : List (String × BinaryOp) :=
  Parsers.binaryLevels.flatten.filter fun entry => entry.2.level = level

/-- The grammar reads the operators of a level together, those of the loosest level first. -/
theorem drop_binaryLevels : ∀ level < 6,
    Parsers.binaryLevels.drop level = operators level :: Parsers.binaryLevels.drop (level + 1) := by
  decide

theorem lookup_operators (op : BinaryOp) : (operators op.level).lookup op.symbol = some op := by
  rcases op with op | op | op <;> cases op <;> rfl

theorem symbol_of_mem : ∀ entry ∈ Parsers.binaryLevels.flatten, entry.1 = entry.2.symbol := by
  decide

/-- A label that is no symbol of a level is no operator there. -/
theorem lookup_operators_eq_none {label : String}
    (h : ∀ op : BinaryOp, op.level = level → label ≠ op.symbol) :
    (operators level).lookup label = none := by
  refine List.lookup_eq_none_iff.mpr fun entry hentry => ?_
  obtain ⟨hmem, hlevel⟩ := List.mem_filter.mp hentry
  rw [symbol_of_mem entry hmem]
  simpa using h entry.2 (of_decide_eq_true hlevel)

/-- Symbols that are no operators. -/
def punctuation : List String := [".", "(", "#", "=>", ")", ",", ";", "\x7b", "\x7d"]

theorem BinaryOp.symbol_not_mem (op : BinaryOp) : op.symbol ∉ punctuation := by
  rcases op with op | op | op <;> cases op <;> decide

theorem Expr.level_le (e : Expr) : e.level ≤ 7 := by
  cases e with
  | binary _ op _ _ => exact Nat.le_of_lt (Nat.lt_trans op.level_lt (by decide))
  | unary => exact Nat.le_succ 6
  | literal | name | member | call | decorator | project | lambda => exact Nat.le_refl 7

/-! ### What stands behind an expression -/

/-- **Nothing in these lexemes continues an expression of the given level.** -/
structure Ends (level : Nat) (after : List Lexeme) : Prop where
  operator : ∀ op : BinaryOp, level ≤ op.level → (front after).label ≠ op.symbol
  suffix : (front after).label ∉ [".", "(", "#", "=>"]

theorem Ends.mono {level' : Nat} (h : Ends level after) (hle : level ≤ level') :
    Ends level' after :=
  ⟨fun op hop => h.operator op (Nat.le_trans hle hop), h.suffix⟩

/-- An operator ends the operands that bind tighter. -/
theorem ends_symbol (op : BinaryOp) (after : List Lexeme) :
    Ends (op.level + 1) (.symbol op.symbol :: after) where
  operator op' hlt heq := by
    rw [BinaryOp.symbol_inj heq] at hlt
    exact Nat.not_succ_le_self _ hlt
  suffix hmem := op.symbol_not_mem (List.mem_append_left [")", ",", ";", "\x7b", "\x7d"] hmem)

/-- The labels that end every expression. -/
theorem ends_of_label (h : (front after).label ∈ [")", ",", ";", "\x7b", "\x7d"]) :
    Ends level after where
  operator op _ heq := by
    rw [heq] at h
    exact op.symbol_not_mem (List.mem_append_right [".", "(", "#", "=>"] h)
  suffix := by
    have hdisjoint : ∀ label ∈ [")", ",", ";", "\x7b", "\x7d"], label ∉ [".", "(", "#", "=>"] := by
      decide
    exact hdisjoint _ h

/-! ### How an expression begins -/

/-- An expression in a position of the given level: as it is if it binds tightly enough, or between
parentheses. -/
inductive Stands (style : Style) (level : Nat) (e : Expr) : List Lexeme → Prop
  | plain : level ≤ e.level → Stands style level e (style.expr e)
  | enclosed : Stands style level e (enclosed (style.expr e))

theorem Style.stands_operand (style : Style) (level : Nat) (e : Expr) :
    Stands style level e (style.operand level e (style.expr e)) := by
  rw [operand]
  split
  · exact .enclosed
  · next h =>
    rw [Bool.or_eq_true, decide_eq_true_eq, not_or] at h
    exact .plain (Nat.le_of_not_lt h.1)

theorem stands_expr (style : Style) (e : Expr) : Stands style 0 e (style.expr e) :=
  .plain (Nat.zero_le _)

/-- An expression in its position is of the position's level, or could as well stand in a position
of the next one. -/
theorem Stands.tighten {w : List Lexeme} (hw : Stands style level e w) :
    (e.level = level ∧ w = style.expr e) ∨ Stands style (level + 1) e w := by
  cases hw with
  | plain hlevel =>
    rcases Nat.eq_or_lt_of_le hlevel with heq | hlt
    · exact .inl ⟨heq.symm, rfl⟩
    · exact .inr (.plain hlt)
  | enclosed => exact .inr .enclosed

/-- The lexemes that a term begins with. -/
inductive Opens : Lexeme → Prop
  | string (s : String) : Opens ⟨.string, s⟩
  | number {text : String} : isNumeral text → Opens ⟨.number, text⟩
  | bool (b : Bool) : Opens (.word (if b then "true" else "false"))
  | name {text : String} : isIdentifier text → Opens (.word text)
  | parenthesis : Opens (.symbol "(")
  | decorator : Opens (.symbol "@")

/-- The lexemes that an expression begins with. -/
inductive Begins : Lexeme → Prop
  | opens {l : Lexeme} : Opens l → Begins l
  | operator (op : UnaryOp) : Begins (.symbol op.symbol)

/-- Labels with which no term begins. -/
def noTerms : List String := ["!", "-", ")", ";", "\x7d", "if", "return", "else"]

theorem Opens.label_not_mem (h : Opens l) : l.label ∉ noTerms := by
  cases h with
  | string s => exact (by decide : "" ∉ noTerms)
  | @number text hnumeral =>
    have hnone : ∀ t ∈ noTerms, isNumeral t = false := by decide
    intro hmem
    rw [hnone text hmem] at hnumeral
    cases hnumeral
  | bool b => cases b <;> decide
  | @name text hname =>
    have hnone : ∀ t ∈ noTerms, isIdentifier t = false := by decide
    intro hmem
    rw [hnone text hmem] at hname
    cases hname
  | parenthesis | decorator => decide

theorem Opens.kind_ne (h : Opens l) : l.kind ≠ .finish := by
  cases h <;> exact nofun

theorem Begins.label_not_mem (h : Begins l) :
    l.label ∉ [")", ";", "\x7d", "if", "return", "else"] := by
  cases h with
  | opens h => exact fun hmem => h.label_not_mem (List.mem_append_right ["!", "-"] hmem)
  | operator op => cases op <;> decide

theorem Begins.kind_ne (h : Begins l) : l.kind ≠ .finish := by
  cases h with
  | opens h => exact h.kind_ne
  | operator op => exact nofun

theorem Literal.opens {v : Literal} {span : Span} (h : (Expr.literal span v).writable) :
    Opens v.lexeme := by
  cases v with
  | string s => exact .string _
  | number lexeme => exact .number h
  | bool b => exact .bool b

/-- The first of the lexemes is of a given class. -/
structure StartsWith (C : Lexeme → Prop) (ls : List Lexeme) : Prop where
  ne_nil : ls ≠ []
  front : C (front ls)

theorem StartsWith.append {C : Lexeme → Prop} (h : StartsWith C ls) (after : List Lexeme) :
    StartsWith C (ls ++ after) where
  ne_nil := List.append_ne_nil_of_left_ne_nil h.ne_nil after
  front := by rw [front_append_of_ne_nil h.ne_nil]; exact h.front

theorem StartsWith.mono {C D : Lexeme → Prop} (h : StartsWith C ls) (hCD : ∀ l, C l → D l) :
    StartsWith D ls :=
  ⟨h.ne_nil, hCD _ h.front⟩

theorem startsWith_opens_of_stands {w : List Lexeme} (h : Stands style 7 e w)
    (he : e.level = 7 → StartsWith Opens (style.expr e)) : StartsWith Opens w := by
  cases h with
  | plain hlevel => exact he (Nat.le_antisymm e.level_le hlevel)
  | enclosed => exact ⟨List.cons_ne_nil _ _, .parenthesis⟩

/-- An expression that binds tightest begins as a term does, with that of its innermost target. -/
theorem startsWith_opens : ∀ {e : Expr}, e.writable → e.level = 7 → StartsWith Opens (style.expr e)
  | .literal _ _, he, _ => ⟨List.cons_ne_nil _ _, Literal.opens he⟩
  | .name _, he, _ => ⟨List.cons_ne_nil _ _, .name he⟩
  | .member _ target _, he, _ => by
    rw [Expr.writable, Bool.and_eq_true] at he
    have htarget := startsWith_opens_of_stands (style.stands_operand 7 target)
      (startsWith_opens he.1)
    exact htarget.append _
  | .call _ callee _, he, _ => by
    simp only [Expr.writable, Bool.and_eq_true] at he
    have hcallee := startsWith_opens_of_stands (style.stands_operand 7 callee)
      (startsWith_opens he.1.2)
    exact hcallee.append _
  | .decorator _ _ _, _, _ => ⟨List.cons_ne_nil _ _, .decorator⟩
  | .project _ target _ _, he, _ => by
    simp only [Expr.writable, Bool.and_eq_true] at he
    have htarget := startsWith_opens_of_stands (style.stands_operand 7 target)
      (startsWith_opens he.1.1)
    exact htarget.append _
  | .lambda _ _ _, _, _ => ⟨List.cons_ne_nil _ _, .parenthesis⟩
  | .unary _ _ _, _, h => nomatch (show 6 = 7 from h)
  | .binary _ op _ _, _, h => absurd h (Nat.ne_of_lt (Nat.lt_trans op.level_lt (by decide)))

theorem startsWith_begins_of_stands {w : List Lexeme} (h : Stands style level e w)
    (he : StartsWith Begins (style.expr e)) : StartsWith Begins w := by
  cases h with
  | plain => exact he
  | enclosed => exact ⟨List.cons_ne_nil _ _, .opens .parenthesis⟩

theorem startsWith_begins : ∀ {e : Expr}, e.writable → StartsWith Begins (style.expr e)
  | .unary _ op _, _ => ⟨List.cons_ne_nil _ _, .operator op⟩
  | .binary _ op lhs _, he => by
    rw [Expr.writable, Bool.and_eq_true] at he
    have hlhs := startsWith_begins_of_stands (style.stands_operand op.level lhs)
      (startsWith_begins he.1)
    exact hlhs.append _
  | .literal _ _, he | .name _, he | .member _ _ _, he | .call _ _ _, he | .decorator _ _ _, he
  | .project _ _ _ _, he | .lambda _ _ _, he => (startsWith_opens he rfl).mono fun _ => .opens

/-! ### What is no list of parameters -/

/-- **Lexemes that, between parentheses, are no list of parameters but for a single name.** -/
inductive Solid : List Lexeme → Prop
  | other {l : Lexeme} {ls : List Lexeme} : l.label ≠ ")" →
    l.kind ≠ .name ∨ keywords.contains l.text → Solid (l :: ls)
  | alone {w : Word} : isIdentifier w.text → Solid [.word w.text]
  | followed {w : Word} {l : Lexeme} {ls : List Lexeme} : isIdentifier w.text → l.label ≠ "," →
    l.label ≠ ")" → Solid (.word w.text :: l :: ls)

theorem Solid.append (h : Solid ls) (hcomma : (front after).label ≠ ",")
    (hclose : (front after).label ≠ ")") : Solid (ls ++ after) := by
  cases h with
  | other hlabel hkind => exact .other hlabel hkind
  | alone hw =>
    cases after with
    | nil => exact .alone hw
    | cons l after => exact .followed hw hcomma hclose
  | followed hw hcomma hclose => exact .followed hw hcomma hclose

theorem solid_enclosed (inner : List Lexeme) : Solid (enclosed inner) :=
  .other (by decide) (.inl (by decide))

theorem solid_of_stands {w : List Lexeme} (h : Stands style level e w)
    (he : Solid (style.expr e)) : Solid w := by
  cases h with
  | plain => exact he
  | enclosed => exact solid_enclosed _

/-- Behind the first name of an expression stands an operator or a suffix, if anything. -/
theorem solid_expr : ∀ {e : Expr}, e.writable → Solid (style.expr e)
  | .literal _ (.string _), _ => .other (show "" ≠ ")" by decide) (.inl nofun)
  | .literal _ (.number lexeme), he => .other (fun h => by
      have h : lexeme = ")" := h
      rw [h] at he
      cases he) (.inl nofun)
  | .literal _ (.bool b), _ => .other (by cases b <;> decide) (.inr (by cases b <;> decide))
  | .name _, he => .alone he
  | .member _ target _, he => by
    rw [Expr.writable, Bool.and_eq_true] at he
    exact (solid_of_stands (style.stands_operand 7 target) (solid_expr he.1)).append
      (by simp) (by simp)
  | .call _ callee _, he => by
    simp only [Expr.writable, Bool.and_eq_true] at he
    exact (solid_of_stands (style.stands_operand 7 callee) (solid_expr he.1.2)).append
      (by simp [listed, enclosed]) (by simp [listed, enclosed])
  | .decorator _ _ _, _ => .other (by decide) (.inl (by decide))
  | .project _ target _ _, he => by
    simp only [Expr.writable, Bool.and_eq_true] at he
    exact (solid_of_stands (style.stands_operand 7 target) (solid_expr he.1.1)).append
      (by simp) (by simp)
  | .lambda _ _ _, _ => .other (by decide) (.inl (by decide))
  | .unary _ op _, _ => .other (by cases op <;> decide) (.inl nofun)
  | .binary _ op lhs _, he => by
    rw [Expr.writable, Bool.and_eq_true] at he
    have hne : ∀ t ∈ punctuation, op.symbol ≠ t := fun t ht h => op.symbol_not_mem (h ▸ ht)
    exact (solid_of_stands (style.stands_operand op.level lhs) (solid_expr he.1)).append
      (hne "," (by decide)) (hne ")" (by decide))

namespace Parsers

/-! ### Terms -/

theorem reads_literal {span : Span} {v : Literal} (hv : (Expr.literal span v).writable) :
    Reads atom (v.lexeme :: after) (fun e => e.bare = (Expr.literal span v).bare) after := by
  refine reads_current.bind fun token htoken => ?_
  have hkind : token.kind = v.lexeme.kind := congrArg Lexeme.kind htoken
  have htext : token.text = v.lexeme.text := congrArg Lexeme.text htoken
  cases v with
  | string s =>
    have hdecode : Json.Literal.decode (token.text.toList ++ ['"']) = .ok (s.toList, []) := by
      rw [htext]
      exact Json.Literal.decode_quotedText s
    rw [hkind]
    simp only [Literal.lexeme, hdecode]
    refine reads_advance.bind fun _ _ => .pure ?_
    rw [Expr.bare, String.ofList_toList]
    rfl
  | number lexeme =>
    rw [hkind, htext]
    exact reads_advance.bind fun _ _ => .pure rfl
  | bool b =>
    rw [hkind, htext]
    cases b <;> exact reads_advance.bind fun _ _ => .pure rfl

theorem reads_name {w : Word} (hw : isIdentifier w.text) :
    Reads atom (.word w.text :: after) (fun e => e.bare = (Expr.name w).bare) after := by
  refine reads_current.bind fun token htoken => ?_
  have hkind : token.kind = .name := congrArg Lexeme.kind htoken
  have htext : token.text = w.text := congrArg Lexeme.text htoken
  have hfree : (w.text = "true" || w.text = "false") = false := by
    have hkeywords : ∀ t ∈ ["true", "false"], isIdentifier t = false := by decide
    have hmem : w.text ∉ ["true", "false"] := fun hmem => by
      rw [hkeywords _ hmem] at hw
      cases hw
    simpa using hmem
  rw [hkind, htext]
  simp only [hfree]
  refine (reads_identifier hw).bind fun v hv => .pure ?_
  rw [Expr.bare, hv, Expr.bare]

/-- A name may stand in a list of parameters. -/
theorem readsItem_identifier {w : Word} (hw : isIdentifier w.text) :
    ReadsItem identifier Word.bare (fun w => [.word w.text]) w := by
  refine ⟨⟨List.cons_ne_nil _ _, fun h => ?_, nofun⟩, fun _ _ => reads_identifier hw⟩
  have h : w.text = ")" := h
  rw [h] at hw
  cases hw

theorem reads_parameters (context : GrammarContext) {words : List Word}
    (hwords : words.all fun w => isIdentifier w.text) :
    Reads (parameters context) (listedWords words ++ after)
      (fun params => params.map Word.bare = words.map Word.bare) after :=
  reads_listOf context fun _ hw => readsItem_identifier (List.all_eq_true.mp hwords _ hw)

/-- The parameters of a lambda are read ahead, and count only if an arrow is behind them. -/
theorem run_lambda? (s : TokenStream) :
    p.lambda?.run s = match (parameters .lambdaParameters).run s with
      | .error _ => .ok (none, s)
      | .ok (params, behind) =>
        if behind.current.label ≠ "=>" then .ok (none, s)
        else
          (do
            advance
            let body ← p.block
            return some (Expr.lambda (← closing s.current.span) params body)).run behind := by
  -- the stream behind the parameters is put back by hand, so the parser is run by hand
  show (match (parameters .lambdaParameters).run s with
      | .error _ => (pure none : Parse (Option Expr))
      | .ok (params, behind) =>
        if behind.current.label ≠ "=>" then pure none
        else do
          set behind
          advance
          let body ← p.block
          return some (Expr.lambda (← closing s.current.span) params body)).run s = _
  cases (parameters .lambdaParameters).run s with
  | error fault => rfl
  | ok read =>
    obtain ⟨params, behind⟩ := read
    by_cases harrow : behind.current.label ≠ "=>"
    · simp only [if_pos harrow]
      rfl
    · simp only [if_neg harrow]
      rfl

/-- A lambda is recognised by the arrow behind its parameters. -/
theorem reads_lambda? {span : Span} {params : List Word} {body : Block}
    (hparams : params.all fun w => isIdentifier w.text)
    (hbody : Reads p.block (style.block body ++ after) (fun b => b.bare = body.bare) after) :
    Reads p.lambda? (style.expr (.lambda span params body) ++ after)
      (fun lambda => ∃ e, lambda = some e ∧ e.bare = (Expr.lambda span params body).bare)
      after := by
  have hlexemes : style.expr (.lambda span params body) ++ after =
      listedWords params ++ .symbol "=>" :: (style.block body ++ after) :=
    List.append_assoc _ _ _
  rw [hlexemes]
  intro s hs
  obtain ⟨words, behind, hrun, hwords, hbehind⟩ :=
    reads_parameters .lambdaParameters hparams s hs
  have harrow : behind.current.label = "=>" := congrArg Lexeme.label hbehind.current
  have hrest : Reads (do
      advance
      let body ← p.block
      return some (Expr.lambda (← closing s.current.span) words body))
      (.symbol "=>" :: (style.block body ++ after))
      (fun lambda => ∃ e, lambda = some e ∧ e.bare = (Expr.lambda span params body).bare)
      after := by
    refine reads_advance.bind fun _ _ => hbody.bind fun b hb => (reads_closing _).bind fun _ _ =>
      .pure ⟨_, rfl, ?_⟩
    rw [Expr.bare, hwords, hb, Expr.bare]
  obtain ⟨lambda, s', hrun', hlambda, hs'⟩ := hrest behind hbehind
  refine ⟨lambda, s', ?_, hlambda, hs'⟩
  rw [run_lambda?, hrun]
  simp only [if_neg (not_not_intro harrow)]
  exact hrun'

/-- Without parameters and an arrow there is no lambda. -/
theorem reads_lambda?_none
    (h : Fails (parameters .lambdaParameters) ls ∨
      ∃ mid, Reads (parameters .lambdaParameters) ls (fun _ => True) mid ∧
        (front mid).label ≠ "=>") :
    Reads p.lambda? ls (· = none) ls := by
  intro s hs
  refine ⟨none, s, ?_, rfl, hs⟩
  rcases h with hfails | ⟨mid, hreads, harrow⟩
  · obtain ⟨fault, hrun⟩ := hfails s hs
    rw [run_lambda?, hrun]
  · obtain ⟨words, behind, hrun, -, hbehind⟩ := hreads s hs
    have hlabel : behind.current.label ≠ "=>" := fun h =>
      harrow ((congrArg Lexeme.label hbehind.current).symm.trans h)
    rw [run_lambda?, hrun]
    simp only [if_pos hlabel]

/-- What is solid is no list of parameters, or one that consists of a single name. -/
theorem parameters_of_solid {w : List Lexeme} (hw : Solid w) (after : List Lexeme) :
    Fails (parameters .lambdaParameters) (enclosed w ++ after) ∨
      Reads (parameters .lambdaParameters) (enclosed w ++ after) (fun _ => True) after := by
  cases hw with
  | @other l ls hlabel hkind =>
    -- the first item is no name
    rw [enclosed_append, List.cons_append]
    refine .inl ((reads_expect _ rfl).bind_fails fun _ _ => reads_label.bind_fails ?_)
    rintro _ rfl
    rw [front_cons, if_neg hlabel]
    have hfails : Fails identifier (l :: (ls ++ .symbol ")" :: after)) := fails_identifier hkind
    exact hfails.bind _
  | @alone v hv =>
    have hwords : [v].all fun w => isIdentifier w.text :=
      List.all_eq_true.mpr (List.forall_mem_singleton.mpr hv)
    exact .inr ((reads_parameters .lambdaParameters hwords).mono fun _ _ => trivial)
  | @followed v l ls hv hcomma hclose =>
    -- the first item is a name, but the list neither goes on nor ends behind it
    rw [enclosed_append, List.cons_append, List.cons_append]
    refine .inl ((reads_expect _ rfl).bind_fails fun _ _ => reads_label.bind_fails ?_)
    rintro _ rfl
    have hname : v.text ≠ ")" := fun h => by
      rw [h] at hv
      cases hv
    rw [front_cons, Lexeme.label_word, if_neg hname]
    have hitems : ∀ w, Reads (iterate (nextItem false identifier) [w])
        (l :: (ls ++ .symbol ")" :: after)) (fun _ => True) (l :: (ls ++ .symbol ")" :: after)) :=
      fun w => reads_iterate (P := fun _ => True) .refl trivial fun _ _ =>
        reads_nextItem_of_ne hcomma
    have hfails : Fails (expect ")" .lambdaParameters) (l :: (ls ++ .symbol ")" :: after)) :=
      fails_expect _ hclose
    exact (reads_identifier hv).bind_fails fun w _ => (hitems w).bind_fails fun _ _ =>
      hfails.bind _

/-! ### Parsers of the level below -/

/-- **Parsers that are good for a number of lexemes**: they read back all parts that are written
down with at most so many. -/
structure Covers (style : Style) (n : Nat) (p : Parsers) : Prop where
  expr : ∀ {e : Expr} {w after : List Lexeme}, e.writable → Stands style 0 e w → w.length ≤ n →
    Ends 0 after → Reads p.expr (w ++ after) (fun e' => e'.bare = e.bare) after
  operand : ∀ {e : Expr} {w after : List Lexeme}, e.writable → Stands style 6 e w → w.length ≤ n →
    Ends 6 after → Reads p.operand (w ++ after) (fun e' => e'.bare = e.bare) after
  block : ∀ {b : Block} {after : List Lexeme}, b.writable → (style.block b).length ≤ n →
    Reads p.block (style.block b ++ after) (fun b' => b'.bare = b.bare) after
  cond : ∀ {span : Span} {test : Expr} {body : Block} {otherwise : Option Block}
    {after : List Lexeme}, (Stmt.cond span test body otherwise).writable →
    (style.stmt (.cond span test body otherwise)).length ≤ n → (front after).label ≠ "else" →
    Reads p.cond (style.stmt (.cond span test body otherwise) ++ after)
      (fun s => s.bare = (Stmt.cond span test body otherwise).bare) after

variable (hp : p.Covers style n)

include hp

/-! ### Parentheses and arguments -/

theorem reads_parenthesized (he : e.writable) (hlength : (style.expr e).length ≤ n)
    (harrow : (front after).label ≠ "=>") :
    Reads p.parenthesized (enclosed (style.expr e) ++ after) (fun e' => e'.bare = e.bare)
      after := by
  have hnone : Reads p.lambda? (enclosed (style.expr e) ++ after) (· = none)
      (enclosed (style.expr e) ++ after) :=
    reads_lambda?_none ((parameters_of_solid (solid_expr he) after).imp_right
      fun hreads => ⟨after, hreads, harrow⟩)
  refine hnone.bind ?_
  rintro _ rfl
  rw [enclosed_append]
  refine reads_advance.bind fun _ _ => ?_
  refine (hp.expr he (stands_expr style e) hlength (ends_of_label (by simp))).bind fun e' he' => ?_
  exact (reads_expect _ rfl).bind fun _ _ => .pure he'

theorem reads_lambda {span : Span} {params : List Word} {body : Block}
    (he : (Expr.lambda span params body).writable) (hlength : (style.block body).length ≤ n) :
    Reads p.parenthesized (style.expr (.lambda span params body) ++ after)
      (fun e => e.bare = (Expr.lambda span params body).bare) after := by
  rw [Expr.writable, Bool.and_eq_true] at he
  refine (reads_lambda? he.1 (hp.block he.2 hlength)).bind ?_
  rintro _ ⟨e, rfl, he⟩
  exact .pure he

/-- An argument may stand in a list. -/
theorem readsItem_expr (he : e.writable) (hlength : (style.expr e).length ≤ n) :
    ReadsItem p.expr Expr.bare style.expr e := by
  have hbegins : StartsWith Begins (style.expr e) := startsWith_begins he
  refine ⟨⟨hbegins.ne_nil, fun h => hbegins.front.label_not_mem ?_, hbegins.front.kind_ne⟩,
    fun after hafter => hp.expr he (stands_expr style e) hlength (ends_of_label ?_)⟩
  · rw [h]
    decide
  · rcases hafter with h | h <;> rw [h] <;> decide

theorem reads_arguments (context : GrammarContext) {args : List Expr}
    (hargs : Expr.allWritable args) (hlength : (listed (style.exprs args)).length ≤ n + 2) :
    Reads (p.arguments context) (listed (style.exprs args) ++ after)
      (fun as => Expr.bares as = Expr.bares args) after := by
  simp only [Expr.bares_eq_map]
  rw [Expr.allWritable_eq, List.all_eq_true] at hargs
  rw [Style.exprs_eq_map] at hlength ⊢
  refine reads_listOf context fun e he => readsItem_expr hp (hargs e he) ?_
  have hitem := length_le_length_listed style.expr he
  omega

theorem reads_decorator {span : Span} {name : Word} {args : List Expr}
    (he : (Expr.decorator span name args).writable)
    (hlength : (style.expr (.decorator span name args)).length ≤ n + 1) :
    Reads p.decorator (style.expr (.decorator span name args) ++ after)
      (fun e => e.bare = (Expr.decorator span name args).bare) after := by
  rw [Expr.writable, Bool.and_eq_true] at he
  rw [Style.expr, List.length_cons, List.length_cons] at hlength
  rw [Style.expr, List.cons_append, List.cons_append]
  refine reads_current.bind fun token _ => reads_advance.bind fun _ _ => ?_
  refine (reads_identifier he.1).bind fun v hv => ?_
  refine (reads_arguments hp _ he.2 (by omega)).bind fun as has => ?_
  refine (reads_closing _).bind fun _ _ => .pure ?_
  rw [Expr.bare, hv, has, Expr.bare]

/-! ### Suffixes -/

section Suffixes

variable {start : Nat} {term target : Expr}

omit hp in
theorem reads_suffix_member {span : Span} {field : Word} (hterm : term.bare = target.bare) :
    Reads (p.suffix? start term) (.symbol "." :: .word field.text :: after)
      (fun next => ∃ e, next = some e ∧ e.bare = (Expr.member span target field).bare) after := by
  refine reads_current.bind fun token htoken => ?_
  have hlabel : token.label = "." := congrArg Lexeme.label htoken
  rw [if_pos hlabel]
  refine reads_advance.bind fun _ _ => (reads_memberName field).bind fun v hv => ?_
  refine (reads_closing _).bind fun _ _ => .pure ⟨_, rfl, ?_⟩
  rw [Expr.bare, hterm, hv, Expr.bare]

theorem reads_suffix_call {span : Span} {args : List Expr} (hterm : term.bare = target.bare)
    (hcallable : target.isCallable) (hargs : Expr.allWritable args)
    (hlength : (listed (style.exprs args)).length ≤ n + 2) :
    Reads (p.suffix? start term) (listed (style.exprs args) ++ after)
      (fun next => ∃ e, next = some e ∧ e.bare = (Expr.call span target args).bare) after := by
  refine reads_current.bind fun token htoken => ?_
  have hlabel : token.label = "(" := congrArg Lexeme.label htoken
  -- whether it may be called does not depend on places
  have hterm' : term.isCallable = true := by
    rw [← Expr.isCallable_bare, hterm, Expr.isCallable_bare, hcallable]
  rw [hlabel, hterm', if_neg (by decide), if_pos (by decide)]
  refine (reads_arguments hp _ hargs hlength).bind fun as has => ?_
  refine (reads_closing _).bind fun _ _ => .pure ⟨_, rfl, ?_⟩
  rw [Expr.bare, hterm, has, Expr.bare]

theorem reads_suffix_project {span : Span} {name : Word} {args : List Expr}
    (hterm : term.bare = target.bare) (hname : isIdentifier name.text)
    (hargs : Expr.allWritable args) (hlength : (listed (style.exprs args)).length ≤ n + 2)
    (hcall : (front after).label ≠ "(") :
    Reads (p.suffix? start term)
      (.symbol "#" :: .word name.text ::
        ((if args.isEmpty then [] else listed (style.exprs args)) ++ after))
      (fun next => ∃ e, next = some e ∧ e.bare = (Expr.project span target name args).bare)
      after := by
  refine reads_current.bind fun token htoken => ?_
  have hlabel : token.label = "#" := congrArg Lexeme.label htoken
  rw [hlabel, if_neg (by decide), if_neg (by simp), if_pos rfl]
  refine reads_advance.bind fun _ _ => (reads_identifier hname).bind fun v hv => ?_
  have hclose : ∀ as, Expr.bares as = Expr.bares args →
      Reads (do return some (Expr.project (← closing { token.span with start }) term v as)) after
        (fun next => ∃ e, next = some e ∧ e.bare = (Expr.project span target name args).bare)
        after := by
    intro as has
    refine (reads_closing _).bind fun _ _ => .pure ⟨_, rfl, ?_⟩
    rw [Expr.bare, hterm, hv, has, Expr.bare]
  refine reads_label_bind ?_
  cases args with
  | nil =>
    rw [List.isEmpty_nil, if_pos rfl, List.nil_append, if_neg hcall]
    exact hclose [] rfl
  | cons arg args =>
    rw [List.isEmpty_cons, if_neg Bool.false_ne_true]
    exact (reads_arguments hp _ hargs hlength).bind hclose

omit hp in
theorem reads_suffix_none (hafter : (front after).label ∉ [".", "(", "#", "=>"]) :
    Reads (p.suffix? start term) after (· = none) after := by
  refine reads_current.bind fun token htoken => ?_
  have hlabel : token.label = (front after).label := congrArg Lexeme.label htoken
  have hne : ∀ t ∈ [".", "(", "#"], token.label ≠ t := by
    rintro t ht rfl
    rw [hlabel] at ht
    exact hafter (List.mem_append_left ["=>"] ht)
  rw [if_neg (hne "." (by decide)), decide_eq_false (hne "(" (by decide)), Bool.false_and,
    if_neg Bool.false_ne_true, if_neg (hne "#" (by decide))]
  exact .pure rfl

end Suffixes

/-! ### References -/

omit hp in
/-- What a reference begins with. -/
def primary (p : Parsers) (token : Token) : Parse Expr :=
  if token.label = "(" then p.parenthesized else if token.label = "@" then p.decorator else atom

omit hp in
theorem reference_eq :
    p.reference = (do
      let token ← current
      let term ← p.primary token
      iterate (p.suffix? token.span.start) term) := by
  refine congrArg (current >>= ·) (funext fun token => ?_)
  unfold primary
  split
  · rfl
  · split <;> rfl

/-- What may stand behind a term that is continued by suffixes. -/
structure Follows (e : Expr) (after : List Lexeme) : Prop where
  arrow : (front after).label ≠ "=>"
  call : (front after).label = "(" → e.isCallable

omit hp in
theorem label_lexeme_not_mem {span : Span} {v : Literal} (hv : (Expr.literal span v).writable) :
    v.lexeme.label ∉ ["(", "@"] := by
  cases v with
  | string s => exact (by decide : "" ∉ ["(", "@"])
  | number lexeme =>
    have hnone : ∀ t ∈ ["(", "@"], isNumeral t = false := by decide
    intro hmem
    rw [Expr.writable, hnone lexeme hmem] at hv
    cases hv
  | bool b => cases b <;> decide

omit hp in
theorem identifier_not_mem {w : Word} (hw : isIdentifier w.text) : w.text ∉ ["(", "@"] := by
  have hnone : ∀ t ∈ ["(", "@"], isIdentifier t = false := by decide
  intro hmem
  rw [hnone w.text hmem] at hw
  cases hw

omit hp in
theorem primary_eq_atom {token : Token} (h : token.label ∉ ["(", "@"]) :
    p.primary token = atom := by
  simp only [List.mem_cons, List.not_mem_nil, or_false, not_or] at h
  rw [primary, if_neg h.1, if_neg h.2]

section Terms

variable (start : Nat) {token : Token}

/-- A target is a term, or stands between parentheses. -/
theorem reaches_of_stands {w : List Lexeme} (he : e.writable) (hw : Stands style 7 e w)
    (hlength : w.length ≤ n + 1) (hafter : Follows e after)
    (htoken : token.lexeme = front (w ++ after))
    (hterm : e.level = 7 → (style.expr e).length ≤ n + 1 →
      token.lexeme = front (style.expr e ++ after) →
      Reaches (p.primary token) (p.suffix? start) (style.expr e ++ after)
        (fun e' => e'.bare = e.bare) after) :
    Reaches (p.primary token) (p.suffix? start) (w ++ after) (fun e' => e'.bare = e.bare)
      after := by
  cases hw with
  | plain hlevel => exact hterm (Nat.le_antisymm e.level_le hlevel) hlength htoken
  | enclosed =>
    -- what stands between parentheses is left to the level below
    have hlabel : token.label = "(" := congrArg Lexeme.label htoken
    rw [primary, if_pos hlabel]
    refine (reads_parenthesized hp he ?_ hafter.arrow).reaches
    simp only [enclosed, List.cons_append, List.length_cons, List.length_append,
      List.length_nil] at hlength
    omega

/-- **Terms with their suffixes are read in rounds**, one for each suffix. -/
theorem reaches_term : ∀ {e : Expr} {after : List Lexeme}, e.writable → e.level = 7 →
    (style.expr e).length ≤ n + 1 → Follows e after →
    token.lexeme = front (style.expr e ++ after) →
    Reaches (p.primary token) (p.suffix? start) (style.expr e ++ after)
      (fun e' => e'.bare = e.bare) after
  | .literal span v, after, he, _, _, _, htoken => by
    have hlabel : token.label = v.lexeme.label := congrArg Lexeme.label htoken
    rw [primary_eq_atom (hlabel ▸ label_lexeme_not_mem he)]
    exact (reads_literal he).reaches
  | .name w, after, he, _, _, _, htoken => by
    have hlabel : token.label = w.text := congrArg Lexeme.label htoken
    rw [primary_eq_atom (hlabel ▸ identifier_not_mem he)]
    exact (reads_name he).reaches
  | .member span target field, after, he, _, hlength, _, htoken => by
    -- the target is read first, and one more round reads the suffix
    rw [Expr.writable, Bool.and_eq_true] at he
    rw [Style.expr, List.length_append] at hlength
    rw [Style.expr, List.append_assoc] at htoken ⊢
    have htarget := reaches_of_stands hp start he.1 (style.stands_operand 7 target)
      (Nat.le_of_add_right_le hlength) ⟨by simp, by simp⟩ htoken
      fun hlevel hle htoken => reaches_term he.1 hlevel hle ⟨by simp, by simp⟩ htoken
    refine htarget.advance (.one ?_ fun term hterm => reads_suffix_member hterm)
    rw [List.cons_append, List.cons_append, List.length_cons, List.length_cons]
    exact Nat.lt_succ_of_lt (Nat.lt_succ_self _)
  | .call span callee args, after, he, _, hlength, _, htoken => by
    simp only [Expr.writable, Bool.and_eq_true] at he
    obtain ⟨⟨hcallable, hcallee⟩, hargs⟩ := he
    rw [Style.expr, List.length_append] at hlength
    rw [Style.expr, List.append_assoc] at htoken ⊢
    have hfollows : Follows callee (listed (style.exprs args) ++ after) :=
      ⟨by simp [listed, enclosed], fun _ => hcallable⟩
    have htarget := reaches_of_stands hp start hcallee (style.stands_operand 7 callee)
      (Nat.le_of_add_right_le hlength) hfollows htoken
      fun hlevel hle htoken => reaches_term hcallee hlevel hle hfollows htoken
    refine htarget.advance (.one ?_ fun term hterm =>
      reads_suffix_call hp hterm hcallable hargs (by omega))
    rw [listed, enclosed_append, List.length_cons, List.length_append, List.length_cons]
    omega
  | .decorator span name args, after, he, _, hlength, _, htoken => by
    have hlabel : token.label = "@" := congrArg Lexeme.label htoken
    rw [primary, hlabel, if_neg (by decide), if_pos rfl]
    exact (reads_decorator hp he hlength).reaches
  | .project span target name args, after, he, _, hlength, hafter, htoken => by
    simp only [Expr.writable, Bool.and_eq_true] at he
    obtain ⟨⟨htarget, hname⟩, hargs⟩ := he
    -- a list behind it would be read as its arguments
    have hcall : (front after).label ≠ "(" := fun h => Bool.false_ne_true (hafter.call h)
    rw [Style.expr, List.length_append] at hlength
    rw [Style.expr, List.append_assoc] at htoken ⊢
    have hreaches := reaches_of_stands hp start htarget (style.stands_operand 7 target)
      (Nat.le_of_add_right_le hlength) ⟨by simp, by simp⟩ htoken
      fun hlevel hle htoken => reaches_term htarget hlevel hle ⟨by simp, by simp⟩ htoken
    refine hreaches.advance (.one ?_ fun term hterm =>
      reads_suffix_project hp hterm hname hargs ?_ hcall)
    · rw [List.cons_append, List.cons_append, List.length_cons, List.length_cons,
        List.length_append]
      omega
    · cases args with
      | nil => exact Nat.le_add_left 2 n
      | cons arg args =>
        rw [List.isEmpty_cons, if_neg Bool.false_ne_true, List.length_cons,
          List.length_cons] at hlength
        omega
  | .lambda span params body, after, he, _, hlength, _, htoken => by
    have hlabel : token.label = "(" := congrArg Lexeme.label htoken
    rw [primary, hlabel, if_pos rfl]
    refine (reads_lambda hp he ?_).reaches
    rw [Style.expr, List.length_append, List.length_cons] at hlength
    omega
  | .unary _ _ _, _, _, h, _, _, _ => absurd h (Nat.ne_of_lt (Nat.lt_succ_self 6))
  | .binary _ op _ _, _, _, h, _, _, _ =>
    absurd h (Nat.ne_of_lt (Nat.lt_trans op.level_lt (by decide)))

end Terms

theorem reads_reference {w : List Lexeme} (he : e.writable) (hw : Stands style 7 e w)
    (hlength : w.length ≤ n + 1) (hafter : Ends 6 after) :
    Reads p.reference (w ++ after) (fun e' => e'.bare = e.bare) after := by
  rw [reference_eq]
  refine reads_current.bind fun token htoken => ?_
  have hfollows : Follows e after :=
    ⟨fun h => hafter.suffix (by rw [h]; decide), fun h => absurd (by rw [h]; decide) hafter.suffix⟩
  have hreaches := reaches_of_stands hp token.span.start he hw hlength hfollows htoken
    fun hlevel hle htoken => reaches_term hp token.span.start he hlevel hle hfollows htoken
  exact hreaches.reads fun _ _ => reads_suffix_none hafter.suffix

/-! ### Unary operators -/

omit hp in
theorem unaryOp?_eq_none {label : String} (h : label ∉ noTerms) : unaryOp? label = none := by
  revert h
  fun_cases unaryOp? label with
  | case1 | case2 =>
    intro h
    exact absurd (by decide) h
  | case3 => exact fun _ => rfl

theorem reads_unary {w : List Lexeme} (he : e.writable) (hw : Stands style 6 e w)
    (hlength : w.length ≤ n + 1) (hafter : Ends 6 after) :
    Reads p.unary (w ++ after) (fun e' => e'.bare = e.bare) after := by
  refine reads_current.bind fun token htoken => ?_
  rcases hw.tighten with ⟨hlevel, rfl⟩ | hw
  · cases e with
    | unary span op operand =>
      have hop : unaryOp? token.label = some op := by
        have hlabel : token.label = op.symbol := congrArg Lexeme.label htoken
        rw [hlabel]
        cases op <;> rfl
      rw [hop]
      have hoperand : operand.writable := he
      have hreads := hp.operand hoperand (style.stands_operand 6 operand)
        (Nat.le_of_succ_le_succ hlength) hafter
      refine reads_advance.bind fun _ _ => hreads.bind fun e he => ?_
      refine (reads_closing _).bind fun _ _ => .pure ?_
      rw [Expr.bare, he, Expr.bare]
    | binary span op lhs rhs => exact absurd hlevel (Nat.ne_of_lt op.level_lt)
    | literal | name | member | call | decorator | project | lambda =>
      exact nomatch (show 7 = 6 from hlevel)
  · -- what binds tighter does not begin with a unary operator
    have hopens := startsWith_opens_of_stands hw (startsWith_opens he)
    rw [front_append_of_ne_nil hopens.ne_nil] at htoken
    have hlabel : token.label = (front w).label := congrArg Lexeme.label htoken
    rw [unaryOp?_eq_none (hlabel ▸ hopens.front.label_not_mem)]
    exact reads_reference hp he hw hlength hafter

/-! ### Binary operators -/

section Chains

variable {operand : Parse Expr}

omit hp in
/-- An operator of the level, and its right operand. -/
theorem reads_binary {start : Nat} {span : Span} {op : BinaryOp} (hop : op.level = level)
    {lhs rhs left : Expr} {w : List Lexeme}
    (hrhs : Reads operand (w ++ after) (fun e => e.bare = rhs.bare) after)
    (hleft : left.bare = lhs.bare) :
    Reads (binary? (operators level) operand start left)
      (.symbol op.symbol :: (w ++ after))
      (fun next => ∃ e, next = some e ∧ e.bare = (Expr.binary span op lhs rhs).bare) after := by
  refine reads_current.bind fun token htoken => ?_
  have hlookup : (operators level).lookup token.label = some op := by
    have hlabel : token.label = op.symbol := congrArg Lexeme.label htoken
    rw [hlabel, ← hop, lookup_operators]
  rw [hlookup]
  refine reads_advance.bind fun _ _ => hrhs.bind fun right hright => ?_
  refine (reads_closing _).bind fun _ _ => .pure ⟨_, rfl, ?_⟩
  rw [Expr.bare, hleft, hright, Expr.bare]

omit hp in
/-- **Operands joined by the operators of a level are read in rounds**, one for each operator. -/
theorem reaches_chain (hlevel : level < 6) (start : Nat)
    (hoperand : ∀ {e : Expr} {w after : List Lexeme}, e.writable → Stands style (level + 1) e w →
      w.length ≤ n + 1 → Ends (level + 1) after →
      Reads operand (w ++ after) (fun e' => e'.bare = e.bare) after) :
    ∀ (e : Expr) (w after : List Lexeme), e.writable → Stands style level e w →
      w.length ≤ n + 1 → Ends (level + 1) after →
      Reaches operand (binary? (operators level) operand start) (w ++ after)
        (fun e' => e'.bare = e.bare) after
  | .binary span op lhs rhs => by
    intro w after he hw hlength hafter
    rcases hw.tighten with ⟨hop, rfl⟩ | hw
    · -- the left operand is the chain up to here, and the right one binds tighter
      have hop : op.level = level := hop
      rw [Expr.writable, Bool.and_eq_true] at he
      rw [Style.expr, List.length_append, List.length_cons, hop] at hlength
      rw [Style.expr, List.append_assoc, List.cons_append, hop]
      have hends : Ends (level + 1)
          (.symbol op.symbol :: (style.operand (level + 1) rhs (style.expr rhs) ++ after)) := by
        rw [← hop]
        exact ends_symbol op _
      have hlhs := reaches_chain hlevel start hoperand lhs _ _ he.1 (style.stands_operand level lhs)
        (Nat.le_of_add_right_le hlength) hends
      have hrhs := hoperand he.2 (style.stands_operand (level + 1) rhs)
        (Nat.le_trans (Nat.le_succ _) (Nat.le_of_add_left_le hlength)) hafter
      refine hlhs.advance (.one ?_ fun left hleft => reads_binary hop hrhs hleft)
      rw [List.length_cons, List.length_append]
      omega
    · exact (hoperand he hw hlength hafter).reaches
  | .literal _ _ | .name _ | .member _ _ _ | .call _ _ _ | .decorator _ _ _ | .project _ _ _ _
  | .lambda _ _ _ | .unary _ _ _ => by
    intro w after he hw hlength hafter
    rcases hw.tighten with ⟨rfl, -⟩ | hw
    · exact absurd hlevel (by simp [Expr.level])
    · exact (hoperand he hw hlength hafter).reaches

omit hp in
theorem reads_binary_none {start : Nat} {lhs : Expr} (hafter : Ends level after) :
    Reads (binary? (operators level) operand start lhs) after (· = none) after := by
  refine reads_current.bind fun token htoken => ?_
  have hnone : (operators level).lookup token.label = none := by
    refine lookup_operators_eq_none fun op hop => ?_
    have hlabel : token.label = (front after).label := congrArg Lexeme.label htoken
    rw [hlabel]
    exact hafter.operator op (Nat.le_of_eq hop.symm)
  rw [hnone]
  exact .pure rfl

end Chains

/-- The levels from a given one on read what stands in a position of that level. -/
theorem reads_chains (hlevel : level ≤ 6) : ∀ {e : Expr} {w after : List Lexeme}, e.writable →
    Stands style level e w → w.length ≤ n + 1 → Ends level after →
    Reads (chains (binaryLevels.drop level) p.unary) (w ++ after) (fun e' => e'.bare = e.bare)
      after := by
  -- from the tightest level to the loosest: the operands of a level are read by the next one
  induction hlevel using Nat.decreasingInduction with
  | self => exact fun he hw hlength hafter => reads_unary hp he hw hlength hafter
  | of_succ level hlevel ih =>
    intro e w after he hw hlength hafter
    rw [drop_binaryLevels level hlevel]
    refine reads_current.bind fun token _ => ?_
    have hreaches := reaches_chain hlevel token.span.start ih e w after he hw hlength
      (hafter.mono (Nat.le_succ level))
    exact hreaches.reads fun _ _ => reads_binary_none hafter

theorem reads_expression {w : List Lexeme} (he : e.writable) (hw : Stands style 0 e w)
    (hlength : w.length ≤ n + 1) (hafter : Ends 0 after) :
    Reads p.expression (w ++ after) (fun e' => e'.bare = e.bare) after :=
  reads_chains hp (Nat.zero_le 6) he hw hlength hafter

end Parsers

end SchemaProjection
