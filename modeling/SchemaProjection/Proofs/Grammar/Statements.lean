import SchemaProjection.Proofs.Grammar.Expressions

/-!
# Printed blocks are read back

The statements of a block are read in rounds, each up to where the next one begins. A statement
ends with its semicolon, or where the brace that closes the block stands; a condition ends where no
`else` follows.

With expressions, blocks and conditions in hand, `parsers_covers` ties the knot: the parsers of
level `n` are good for `n` lexemes.
-/

namespace SchemaProjection

open Parse

variable {style : Style} {p : Parsers} {n : Nat} {ls after : List Lexeme}

/-! ### How a statement begins -/

/-- The lexemes that a statement may begin with. -/
structure BeginsStatement (l : Lexeme) : Prop where
  label_not_mem : l.label ∉ [";", "\x7d", "else"]
  kind_ne : l.kind ≠ .finish

theorem startsWith_stmt : ∀ {s : Stmt}, s.writable → StartsWith BeginsStatement (style.stmt s)
  | .expr _ _, hs => (startsWith_begins hs).mono fun l h => by
    have hsub : [";", "\x7d", "else"] ⊆ [")", ";", "\x7d", "if", "return", "else"] := by decide
    exact ⟨fun hmem => h.label_not_mem (hsub hmem), h.kind_ne⟩
  | .cond _ _ _ _, _ => by
    rw [Style.stmt_cond]
    exact ⟨List.cons_ne_nil _ _, (by decide : "if" ∉ [";", "\x7d", "else"]), nofun⟩
  | .ret _ _, _ =>
    ⟨List.cons_ne_nil _ _, (by decide : "return" ∉ [";", "\x7d", "else"]), nofun⟩

/-- What stands behind a statement, the last one of its block or another. -/
structure EndsStatement (last : Bool) (after : List Lexeme) : Prop where
  closes : last → (front after).label = "\x7d"
  label_not_mem : (front after).label ∉ [";", "else"]

theorem label_front_block (style : Style) (b : Block) (after : List Lexeme) :
    (front (style.block b ++ after)).label = "\x7b" := by
  cases b
  rfl

namespace Parsers

/-! ### Terminators -/

/-- What stands behind an expression or a `return` ends it. -/
theorem ends_terminator {last : Bool} {s : Stmt} (hafter : EndsStatement last after)
    (hs : style.terminator last s = if last && !style.semicolons then [] else [.symbol ";"])
    (level : Nat) : Ends level (style.terminator last s ++ after) := by
  refine ends_of_label ?_
  rw [hs]
  split
  · next h =>
    rw [Bool.and_eq_true] at h
    rw [List.nil_append, hafter.closes h.1]
    decide
  · exact (by decide : ";" ∈ [")", ",", ";", "\x7b", "\x7d"])

theorem reads_terminator {last : Bool} {s : Stmt} (hafter : EndsStatement last after)
    (hs : style.terminator last s = if last && !style.semicolons then [] else [.symbol ";"]) :
    Reads terminator (style.terminator last s ++ after) (fun _ => True) after := by
  rw [hs]
  split
  · next h =>
    rw [Bool.and_eq_true] at h
    refine reads_label_bind ?_
    rw [List.nil_append, hafter.closes h.1, if_neg (by decide), if_pos rfl]
    exact .pure trivial
  · refine reads_label_bind ?_
    exact reads_advance

variable (hp : p.Covers style n)

include hp

/-! ### Conditions -/

theorem reads_alternative {span : Span} {ss : List Stmt} (hss : (Block.mk span ss).writable)
    (hlength : (style.alternative ss (style.stmts ss)).length ≤ n)
    (hafter : (front after).label ≠ "else") :
    Reads p.alternative (style.alternative ss (style.stmts ss) ++ after)
      (fun b => b.bare = (Block.mk span ss).bare) after := by
  -- an alternative is a block, but for a condition that is written without braces
  have hblock : (style.block (.mk span ss)).length ≤ n →
      Reads p.alternative (style.block (.mk span ss) ++ after)
        (fun b => b.bare = (Block.mk span ss).bare) after := by
    intro hlength
    refine reads_current.bind fun token htoken => ?_
    have hlabel : token.label = "\x7b" := by
      rw [← label_front_block style (.mk span ss) after]
      exact congrArg Lexeme.label htoken
    rw [hlabel, if_neg (by decide)]
    exact hp.block hss hlength
  revert hlength
  fun_cases style.alternative ss (style.stmts ss) with
  | case1 condSpan test body otherwise hstyle =>
    rw [Style.stmts, Style.stmts, List.flatten_cons, List.flatten_nil, List.append_nil]
    intro hlength
    rw [Block.writable, Stmt.allWritable, Stmt.allWritable, Bool.and_true] at hss
    refine reads_current.bind fun token htoken => ?_
    have hlabel : token.label = "if" := by
      rw [Style.stmt_cond] at htoken
      exact congrArg Lexeme.label htoken
    rw [hlabel, if_pos rfl]
    -- the condition is put into a block of its own
    refine (hp.cond hss hlength hafter).bind fun nested hnested => ?_
    refine (reads_closing _).bind fun _ _ => .pure ?_
    rw [Block.bare, Stmt.bares, hnested]
    rfl
  | case2 => exact hblock
  | case3 => exact hblock

theorem reads_condition {span : Span} {test : Expr} {body : Block} {otherwise : Option Block}
    (hs : (Stmt.cond span test body otherwise).writable)
    (hlength : (style.stmt (.cond span test body otherwise)).length ≤ n + 1)
    (hafter : (front after).label ≠ "else") :
    Reads p.condition (style.stmt (.cond span test body otherwise) ++ after)
      (fun s => s.bare = (Stmt.cond span test body otherwise).bare) after := by
  rw [Stmt.writable_cond, Bool.and_eq_true, Bool.and_eq_true] at hs
  rw [Style.stmt_cond, List.length_cons, List.length_append, List.length_append] at hlength
  rw [Style.stmt_cond, List.cons_append, List.append_assoc, List.append_assoc]
  have hends : Ends 0 (style.block body ++ (style.otherwise otherwise ++ after)) :=
    ends_of_label (by rw [label_front_block]; decide)
  refine reads_current.bind fun token _ => reads_advance.bind fun _ _ => ?_
  refine (hp.expr hs.1.1 (stands_expr style test) (by omega) hends).bind fun e he => ?_
  refine (hp.block hs.1.2 (by omega)).bind fun b hb => ?_
  -- what is done behind the body and behind `else` is the same
  have hclose : ∀ o : Option Block, o.map Block.bare = otherwise.map Block.bare →
      Reads (do return Stmt.cond (← closing token.span) e b o) after
        (fun s => s.bare = (Stmt.cond span test body otherwise).bare) after := by
    intro o ho
    refine (reads_closing _).bind fun _ _ => .pure ?_
    rw [Stmt.bare_cond, he, hb, ho, Stmt.bare_cond]
  refine reads_label_bind ?_
  rcases otherwise with _ | ⟨altSpan, ss⟩
  · rw [Style.otherwise, List.nil_append, if_neg hafter]
    exact hclose none rfl
  · rw [Style.otherwise, List.length_cons] at hlength
    refine reads_advance.bind fun _ _ => ?_
    exact (reads_alternative hp hs.2 (by omega) hafter).bind fun o ho =>
      hclose (some o) (congrArg some ho)

/-! ### Statements -/

theorem reads_statement {last : Bool} {s : Stmt} (hs : s.writable)
    (hlength : (style.stmt s).length ≤ n) (hafter : EndsStatement last after) :
    Reads p.statement (style.stmt s ++ (style.terminator last s ++ after))
      (fun s' => s'.bare = s.bare) after := by
  refine reads_current.bind fun token htoken => ?_
  have hstarts : StartsWith BeginsStatement (style.stmt s) := startsWith_stmt hs
  rw [front_append_of_ne_nil hstarts.ne_nil] at htoken
  have hlabel : token.label = (front (style.stmt s)).label := congrArg Lexeme.label htoken
  rw [hlabel]
  cases s with
  | expr span e =>
    -- no expression begins with a keyword of statements
    have hbegins : StartsWith Begins (style.expr e) := startsWith_begins hs
    have hne : ∀ t ∈ ["if", "return"], (front (style.expr e)).label ≠ t := by
      rintro t ht rfl
      exact hbegins.front.label_not_mem
        (List.mem_append_right [")", ";", "\x7d"] (List.mem_append_left ["else"] ht))
    rw [Style.stmt, if_neg (hne "if" (by decide)), if_neg (hne "return" (by decide))]
    have hends : Ends 0 (style.terminator last (.expr span e) ++ after) :=
      ends_terminator hafter rfl 0
    have he := reads_expression hp (e := e) hs (stands_expr style e) (Nat.le_succ_of_le hlength)
      hends
    refine he.bind fun e' he' => (reads_closing _).bind fun _ _ => ?_
    refine (reads_terminator hafter rfl).bind fun _ _ => .pure ?_
    rw [Stmt.bare, he', Stmt.bare]
  | cond span test body otherwise =>
    have hif : (front (style.stmt (.cond span test body otherwise))).label = "if" := by
      rw [Style.stmt_cond]
      rfl
    have hnone := hafter.label_not_mem
    simp only [List.mem_cons, List.not_mem_nil, or_false, not_or] at hnone
    rw [hif, if_pos rfl]
    -- the semicolon is read if it is there
    cases hstyle : style.semicolons with
    | true =>
      have hterminator : style.terminator last (.cond span test body otherwise) = [.symbol ";"] :=
        if_pos hstyle
      rw [hterminator]
      have hne : (front (.symbol ";" :: after)).label ≠ "else" := (by decide : ";" ≠ "else")
      refine (reads_condition hp hs (Nat.le_succ_of_le hlength) hne).bind fun stmt hstmt => ?_
      exact (reads_skip rfl).bind fun _ _ => .pure hstmt
    | false =>
      have hterminator : style.terminator last (.cond span test body otherwise) = [] :=
        if_neg (by rw [hstyle]; exact Bool.false_ne_true)
      rw [hterminator]
      refine (reads_condition hp hs (Nat.le_succ_of_le hlength) hnone.2).bind fun stmt hstmt => ?_
      exact (reads_skip_of_ne hnone.1).bind fun _ _ => .pure hstmt
  | ret span e =>
    have hreturn : (front (style.stmt (.ret span e))).label = "return" := rfl
    rw [hreturn, if_neg (by decide), if_pos rfl, Style.stmt, List.cons_append]
    rw [Style.stmt, List.length_cons] at hlength
    have hends : Ends 0 (style.terminator last (.ret span e) ++ after) :=
      ends_terminator hafter rfl 0
    have he := reads_expression hp (e := e) hs (stands_expr style e) (by omega) hends
    refine reads_advance.bind fun _ _ => he.bind fun e' he' => (reads_closing _).bind fun _ _ => ?_
    refine (reads_terminator hafter rfl).bind fun _ _ => .pure ?_
    rw [Stmt.bare, he', Stmt.bare]

/-- One statement of a block. -/
theorem reads_statement? {last : Bool} {s : Stmt} (hs : s.writable)
    (hlength : (style.stmt s).length ≤ n) (hafter : EndsStatement last after) (stmts : List Stmt) :
    Reads (p.statement? stmts) (style.stmt s ++ (style.terminator last s ++ after))
      (fun next => ∃ s', next = some (s' :: stmts) ∧ s'.bare = s.bare) after := by
  refine reads_current.bind fun token htoken => ?_
  have hstarts : StartsWith BeginsStatement (style.stmt s) := startsWith_stmt hs
  rw [front_append_of_ne_nil hstarts.ne_nil] at htoken
  have hlabel : token.label ∉ [";", "\x7d", "else"] := by
    have hlabel : token.label = (front (style.stmt s)).label := congrArg Lexeme.label htoken
    rw [hlabel]
    exact hstarts.front.label_not_mem
  have hkind : token.kind ≠ .finish := by
    have hkind : token.kind = (front (style.stmt s)).kind := congrArg Lexeme.kind htoken
    rw [hkind]
    exact hstarts.front.kind_ne
  simp only [List.mem_cons, not_or] at hlabel
  rw [if_neg hlabel.2.1, if_neg hlabel.1, if_neg hkind]
  exact (reads_statement hp hs hlength hafter).bind fun s' hs' => .pure ⟨s', rfl, hs'⟩

omit hp in
/-- Behind a statement stands the next one, or the brace that closes the block. -/
theorem endsStatement_sequence {ss : List Stmt} (hss : Stmt.allWritable ss) :
    EndsStatement ss.isEmpty
      (style.sequence ss (style.stmts ss) ++ .symbol "\x7d" :: after) := by
  cases ss with
  | nil => exact ⟨fun _ => rfl, (by decide : "\x7d" ∉ [";", "else"])⟩
  | cons s ss =>
    rw [Stmt.allWritable, Bool.and_eq_true] at hss
    have hstarts : StartsWith BeginsStatement (style.stmt s) := startsWith_stmt hss.1
    refine ⟨fun h => absurd h Bool.false_ne_true, ?_⟩
    rw [Style.stmts, Style.sequence, List.append_assoc, List.append_assoc,
      front_append_of_ne_nil hstarts.ne_nil]
    have hlabel := hstarts.front.label_not_mem
    simp only [List.mem_cons, not_or] at hlabel ⊢
    exact ⟨hlabel.1, hlabel.2.2⟩

omit hp in
/-- The brace ends the statements. -/
theorem reads_statement?_none {stmts : List Stmt} :
    Reads (p.statement? stmts) (.symbol "\x7d" :: after) (· = none) (.symbol "\x7d" :: after) := by
  refine reads_current.bind fun token htoken => ?_
  have hlabel : token.label = "\x7d" := congrArg Lexeme.label htoken
  rw [if_pos hlabel]
  exact .pure rfl

/-- **Statements are read in rounds**, one for each. -/
theorem advances_statements {ss : List Stmt} (hss : Stmt.allWritable ss)
    (hlength : (style.sequence ss (style.stmts ss)).length ≤ n) (done : List Stmt) :
    Advances p.statement? (fun stmts => stmts.map Stmt.bare = done)
      (style.sequence ss (style.stmts ss) ++ .symbol "\x7d" :: after)
      (fun stmts => stmts.map Stmt.bare = (ss.map Stmt.bare).reverse ++ done)
      (.symbol "\x7d" :: after) := by
  induction ss generalizing done with
  | nil => exact .refl
  | cons s ss ih =>
    rw [Stmt.allWritable, Bool.and_eq_true] at hss
    rw [Style.stmts, Style.sequence, List.length_append, List.length_append] at hlength
    rw [Style.stmts, Style.sequence, List.append_assoc, List.append_assoc, List.map_cons,
      List.reverse_cons, List.append_assoc]
    have hrest := ih hss.2 (by omega) (s.bare :: done)
    refine .trans (.one ?_ fun stmts hstmts => ?_) hrest
    -- a statement has a lexeme at least, so the round consumes a token
    · have hstarts : StartsWith BeginsStatement (style.stmt s) := startsWith_stmt hss.1
      have hpos := List.length_pos_iff.mpr hstarts.ne_nil
      simp only [List.length_append]
      omega
    · refine (reads_statement? hp hss.1 (by omega) (endsStatement_sequence hss.2) stmts).mono ?_
      rintro _ ⟨s', rfl, hs'⟩
      exact ⟨_, rfl, by rw [List.map_cons, hs', hstmts]⟩

/-- **Blocks are read back.** -/
theorem reads_braced {b : Block} (hb : b.writable) (hlength : (style.block b).length ≤ n + 1) :
    Reads p.braced (style.block b ++ after) (fun b' => b'.bare = b.bare) after := by
  obtain ⟨span, ss⟩ := b
  rw [Style.block, Style.braced, List.cons_append, List.length_cons, List.length_append] at hlength
  rw [Style.block, Style.braced, List.cons_append, List.cons_append, List.append_assoc]
  have hstmts : Reads (iterate p.statement? [])
      (style.sequence ss (style.stmts ss) ++ .symbol "\x7d" :: after)
      (fun stmts => stmts.map Stmt.bare = (ss.map Stmt.bare).reverse ++ [])
      (.symbol "\x7d" :: after) :=
    reads_iterate (advances_statements hp hb (by omega) []) rfl fun _ _ => reads_statement?_none
  refine reads_current.bind fun token _ => (reads_expect _ rfl).bind fun _ _ => ?_
  refine hstmts.bind fun stmts hstmts => ?_
  refine (reads_expect _ rfl).bind fun _ _ => (reads_closing _).bind fun _ _ => .pure ?_
  rw [Block.bare, Stmt.bares_eq_map, List.map_reverse, hstmts, List.append_nil,
    List.reverse_reverse, Block.bare, Stmt.bares_eq_map]

omit hp in
/-- **The parsers of a level are good for as many lexemes.** -/
theorem parsers_covers (style : Style) (n : Nat) : (parsers n).Covers style n := by
  induction n with
  | zero =>
    -- nothing is written without a lexeme
    exact {
      expr he hw hlength _ := absurd (List.length_eq_zero_iff.mp (Nat.le_zero.mp hlength))
        (startsWith_begins_of_stands hw (startsWith_begins he)).ne_nil
      operand he hw hlength _ := absurd (List.length_eq_zero_iff.mp (Nat.le_zero.mp hlength))
        (startsWith_begins_of_stands hw (startsWith_begins he)).ne_nil
      block {b} _ _ hlength := by
        cases b
        exact absurd hlength (Nat.not_succ_le_zero _)
      cond _ hlength _ := by
        rw [Style.stmt_cond] at hlength
        exact absurd hlength (Nat.not_succ_le_zero _) }
  | succ n ih =>
    exact {
      expr he hw hlength hafter := reads_expression ih he hw hlength hafter
      operand he hw hlength hafter := reads_unary ih he hw hlength hafter
      block hb hlength := reads_braced ih hb hlength
      cond hs hlength hafter := reads_condition ih hs hlength hafter }

end Parsers

end SchemaProjection
