import SchemaProjection.Proofs.Grammar.Consumption
import SchemaProjection.Proofs.Grammar.Coverage

/-!
# A source is read to its end

What is read of a source is its text up to the first NUL (`Source.reach`). If it splits without
fault, then tokens and gaps cover all of that, and the end token stands behind it. If it is read as
a file, then no token is left, and the projections are those of all the declarations among the
tokens, in order (`Source.read_to_end`).

A declaration begins with the keyword `projection`, unless that stands behind a point
(`declarations`). That the grammar has read one for each of these follows from what parsers consume:
in front of a declaration and within it, the tokens are inert.
-/

namespace SchemaProjection

open Parse TokenStream

/-! ### Declarations -/

/-- **The tokens from each declaration on**: from each keyword `projection` that does not stand
behind a point. -/
def declarations (behindPoint : Bool) : List Token → List (List Token)
  | [] => []
  | token :: rest =>
    let later := declarations (token.lexeme = .symbol ".") rest
    if token.lexeme = .word "projection" ∧ ¬ behindPoint then (token :: rest) :: later else later

section Steps

variable {token : Token} {passed rest : List Token}

theorem declarations_keyword (h : token.lexeme = .word "projection") (rest : List Token) :
    declarations false (token :: rest) = (token :: rest) :: declarations false rest := by
  have hsymbol : Lexeme.word "projection" ≠ .symbol "." := by decide
  simp only [declarations, h, hsymbol, Bool.false_eq_true, not_false_eq_true, and_self, if_true,
    decide_false]

theorem declarations_of_ne (hword : token.lexeme ≠ .word "projection")
    (hpoint : token.lexeme ≠ .symbol ".") (rest : List Token) :
    declarations false (token :: rest) = declarations false rest := by
  simp only [declarations, hword, hpoint, false_and, if_false, decide_false]

/-- A point and the name behind it. -/
theorem declarations_member {point name : Token} (hpoint : point.lexeme = .symbol ".")
    (hname : name.kind = .name) (rest : List Token) :
    declarations false (point :: name :: rest) = declarations false rest := by
  have hword : Lexeme.symbol "." ≠ .word "projection" := by decide
  have hsymbol : name.lexeme ≠ .symbol "." := lexeme_ne_of_kind hname (by decide)
  simp only [declarations, hpoint, hword, hsymbol, not_true, and_false, false_and, if_false,
    decide_true, decide_false]

/-- A legible lexeme is known by this label. -/
theorem Lexeme.Legible.symbol_of_label {l : Lexeme} (hl : l.Legible) (h : l.label = ".") :
    l = .symbol "." := by
  cases hl with
  | symbol => exact congrArg Lexeme.symbol h
  | @word text hword =>
    obtain rfl : text = "." := h
    exact absurd hword (by decide)
  | @number text hnumeral =>
    obtain rfl : text = "." := h
    exact absurd hnumeral (by decide)
  | string => exact absurd (show "" = "." from h) (by decide)

theorem Lexeme.Legible.word_of_label {l : Lexeme} (hl : l.Legible) (h : l.label = "projection") :
    l = .word "projection" := by
  cases hl with
  | word => exact congrArg Lexeme.word h
  | @symbol text hsymbol =>
    obtain rfl : text = "projection" := h
    exact absurd hsymbol (by decide)
  | @number text hnumeral =>
    obtain rfl : text = "projection" := h
    exact absurd hnumeral (by decide)
  | string => exact absurd (show "" = "projection" from h) (by decide)

theorem Inert.declarations_append (h : Inert passed)
    (hlegible : ∀ token ∈ passed, token.lexeme.Legible) (rest : List Token) :
    declarations false (passed ++ rest) = declarations false rest := by
  induction h with
  | nil => rfl
  | cons hword hpoint _ ih =>
    rw [List.cons_append, declarations_of_ne hword hpoint]
    exact ih (List.forall_mem_cons.mp hlegible).2
  | member hpoint hname _ ih =>
    obtain ⟨hlegible, hrest⟩ := List.forall_mem_cons.mp hlegible
    rw [List.cons_append, List.cons_append,
      declarations_member (hlegible.symbol_of_label hpoint) hname]
    exact ih (List.forall_mem_cons.mp hrest).2

end Steps

namespace ProjectionTree

/-- **The tokens of a declaration**: the keyword, the selector and the name of the tree, and what is
between braces. No other declaration begins among them, and the tree covers them all. -/
inductive Declares (tree : ProjectionTree) : List Token → Prop
  | mk {keyword selector hash name opening closing : Token} {body : List Token} :
    keyword.label = "projection" → hash.label = "#" → opening.label = "\x7b" →
    closing.label = "\x7d" → Inert (selector :: hash :: name :: opening :: (body ++ [closing])) →
    tree.span = { keyword.span with stop := closing.span.stop } →
    tree.selector = selector.word → tree.name = name.word →
    Declares tree (keyword :: selector :: hash :: name :: opening :: (body ++ [closing]))

/-- **The tokens of declarations**, one behind the other, with inert tokens in between. -/
inductive AllDeclare : List ProjectionTree → List Token → Prop
  | nil {between : List Token} : Inert between → AllDeclare [] between
  | cons {tree : ProjectionTree} {trees : List ProjectionTree}
    {between declaration rest : List Token} : Inert between → tree.Declares declaration →
    AllDeclare trees rest →
    AllDeclare (tree :: trees) (between ++ (declaration ++ rest))

variable {passed rest : List Token}

theorem AllDeclare.inert_append {trees : List ProjectionTree} {between : List Token}
    (hinert : Inert between) (h : AllDeclare trees rest) : AllDeclare trees (between ++ rest) := by
  cases h with
  | nil hrest => exact .nil (hinert.append hrest)
  | cons hfront hdeclares hrest =>
    rw [← List.append_assoc]
    exact .cons (hinert.append hfront) hdeclares hrest

theorem Declares.declarations_append {tree : ProjectionTree} (h : tree.Declares passed)
    (hlegible : ∀ token ∈ passed, token.lexeme.Legible) (rest : List Token) :
    declarations false (passed ++ rest) = (passed ++ rest) :: declarations false rest := by
  cases h with
  | @mk keyword selector hash name opening closing body hkeyword _ _ _ hinert =>
    obtain ⟨hlegible, htail⟩ := List.forall_mem_cons.mp hlegible
    have hword : keyword.lexeme = .word "projection" := hlegible.word_of_label hkeyword
    rw [List.cons_append, declarations_keyword hword, hinert.declarations_append htail]

/-- **There is one tree for each declaration**, and it is declared there. -/
theorem AllDeclare.forall₂ {trees : List ProjectionTree} (h : AllDeclare trees passed)
    (hlegible : ∀ token ∈ passed, token.lexeme.Legible) :
    List.Forall₂ (fun tree tokens => ∃ declaration, declaration <+: tokens ∧
      tree.Declares declaration) trees (declarations false passed) := by
  induction h with
  | @nil between hinert =>
    have hnone := hinert.declarations_append hlegible []
    rw [List.append_nil] at hnone
    rw [hnone]
    exact .nil
  | cons hinert hdeclares _ ih =>
    obtain ⟨hfront, hlegible⟩ := List.forall_mem_append.mp hlegible
    obtain ⟨hdeclaration, hrest⟩ := List.forall_mem_append.mp hlegible
    rw [hinert.declarations_append hfront, hdeclares.declarations_append hdeclaration]
    exact .cons ⟨_, List.prefix_append _ _, hdeclares⟩ (ih hrest)

/-! ### What is read of a file -/

section Levels

variable {p : Parsers} (hp : p.Inertly) {s s' : TokenStream}
include hp

/-- **A declaration consists of its tokens.** -/
theorem declares_of_parse {tree : ProjectionTree} (hs : s.Sound)
    (h : (parse p).run s = .ok (tree, s')) :
    ∃ passed, tree.Declares passed ∧ Consumed passed s s' := by
  obtain ⟨_, _, hcurrent, h⟩ := exists_of_run_bind h
  cases hcurrent
  obtain ⟨hkeyword, s₁, hconsumed₁, -, h⟩ := exists_of_expect_bind hs (by decide) h
  have hs₁ := hconsumed₁.sound hs
  obtain ⟨hselector, s₂, hconsumed₂, h⟩ := exists_of_identifier_bind hs₁ h
  have hs₂ := hconsumed₂.sound hs₁
  obtain ⟨hhash, s₃, hconsumed₃, -, h⟩ := exists_of_expect_bind hs₂ (by decide) h
  have hs₃ := hconsumed₃.sound hs₂
  obtain ⟨hname, s₄, hconsumed₄, h⟩ := exists_of_identifier_bind hs₃ h
  have hs₄ := hconsumed₄.sound hs₃
  obtain ⟨hopening, s₅, hconsumed₅, -, h⟩ := exists_of_expect_bind hs₄ (by decide) h
  have hs₅ := hconsumed₅.sound hs₄
  obtain ⟨read, s₆, hdirections, h⟩ := exists_of_run_bind h
  obtain ⟨body, hbody, hconsumed₆⟩ :=
    inertly_iterate (inertly_direction? hp) _ hs₅ read s₆ hdirections
  have hs₆ := hconsumed₆.sound hs₅
  obtain ⟨hclosing, s₇, hconsumed₇, hlastStop, h⟩ := exists_of_expect_bind hs₆ (by decide) h
  cases h
  have hinert := hselector.append <| (Inert.of_label hhash (by decide)).append <| hname.append <|
    (Inert.of_label hopening (by decide)).append <| hbody.append (.of_label hclosing (by decide))
  have hconsumed := hconsumed₁.trans <| hconsumed₂.trans <| hconsumed₃.trans <| hconsumed₄.trans <|
    hconsumed₅.trans (hconsumed₆.trans hconsumed₇)
  have hspan : { s.current.span with stop := s'.lastStop } =
      { s.current.span with stop := s₆.current.span.stop } := by rw [hlastStop]
  exact ⟨_, .mk hkeyword hhash hopening hclosing hinert hspan rfl rfl, hconsumed⟩

/-- **A round of the loop over a file** ends it, or reads one more declaration. -/
theorem next?_cases {trees : List ProjectionTree} {next : Option (List ProjectionTree)}
    (hs : s.Sound) (h : (next? p trees).run s = .ok (next, s')) :
    ∃ between, Inert between ∧
      ((next = none ∧ s'.current.kind = .finish ∧ Consumed between s s') ∨
        ∃ tree declaration between', next = some (tree :: trees) ∧ tree.Declares declaration ∧
          Inert between' ∧ Consumed (between ++ (declaration ++ between')) s s') := by
  obtain ⟨_, s₁, hdirectives, h⟩ := exists_of_run_bind h
  obtain ⟨between, hinert, hconsumed⟩ := inertly_directives s hs _ s₁ hdirectives
  have hs₁ := hconsumed.sound hs
  refine ⟨between, hinert, ?_⟩
  have h : (if s₁.current.kind = TokenKind.finish then pure none else do
      let tree ← parse p
      skip ";"
      return some (tree :: trees)).run s₁ = .ok (next, s') := h
  split_ifs at h with hfinish
  · cases h
    exact .inl ⟨rfl, hfinish, hconsumed⟩
  · obtain ⟨tree, s₂, hparse, h⟩ := exists_of_run_bind h
    obtain ⟨declaration, hdeclares, hconsumed₂⟩ := declares_of_parse hp hs₁ hparse
    obtain ⟨_, s₃, hskip, h⟩ := exists_of_run_bind h
    obtain ⟨between', hinert', hconsumed₃⟩ :=
      inertly_skip (by decide) (hconsumed₂.sound hs₁) _ s₃ hskip
    cases h
    refine .inr ⟨tree, declaration, between', rfl, hdeclares, hinert', ?_⟩
    exact hconsumed.trans (hconsumed₂.trans hconsumed₃)

theorem declared_of_loop {tokens : List Token} {trees read : List ProjectionTree} (hs : s.Sound)
    (h : (loop (next? p) tokens trees).run s = .ok (read, s')) :
    ∃ later passed, read = later.reverse ++ trees ∧ AllDeclare later passed ∧
      Consumed passed s s' ∧ s'.current.kind = .finish := by
  induction tokens generalizing trees s with
  | nil =>
    obtain ⟨next, s₁, hround, h⟩ := exists_of_run_bind h
    obtain ⟨between, hinert, ⟨rfl, hfinish, hconsumed⟩ | ⟨_, _, _, rfl, -⟩⟩ :=
      next?_cases hp hs hround
    · cases h
      exact ⟨[], between, rfl, .nil hinert, hconsumed, hfinish⟩
    · -- no rounds are left, so the loop fails
      cases h
  | cons token tokens ih =>
    obtain ⟨next, s₁, hround, h⟩ := exists_of_run_bind h
    obtain ⟨between, hinert, ⟨rfl, hfinish, hconsumed⟩ |
      ⟨tree, declaration, between', rfl, hdeclares, hinert', hconsumed⟩⟩ := next?_cases hp hs hround
    · cases h
      exact ⟨[], between, rfl, .nil hinert, hconsumed, hfinish⟩
    · obtain ⟨later, passed, rfl, hlater, hconsumed', hfinish⟩ := ih (hconsumed.sound hs) h
      refine ⟨tree :: later, between ++ (declaration ++ (between' ++ passed)), ?_, ?_, ?_, hfinish⟩
      · rw [List.reverse_cons, List.append_assoc]
        rfl
      · exact .cons hinert hdeclares (hlater.inert_append hinert')
      · have htrans := hconsumed.trans hconsumed'
        simp only [List.append_assoc] at htrans
        exact htrans

/-- **A file is read up to the end token**, and all declarations on the way are read. -/
theorem declared_of_file {trees : List ProjectionTree} (hs : s.Sound)
    (h : (file p).run s = .ok (trees, s')) :
    ∃ passed, AllDeclare trees passed ∧ Consumed passed s s' ∧ s'.current.kind = .finish := by
  obtain ⟨read, s₁, hiterate, h⟩ := exists_of_run_bind h
  cases h
  obtain ⟨later, passed, rfl, hlater, hconsumed, hfinish⟩ := declared_of_loop hp hs hiterate
  rw [List.append_nil, List.reverse_reverse]
  exact ⟨passed, hlater, hconsumed, hfinish⟩

end Levels

end ProjectionTree

/-! ### Sources -/

/-- The end token is the last of the source, and so of the stream that is read from. -/
theorem Source.sound_of_tokens {source : Source} {token : Token} {rest : List Token}
    {fault : Option LexicalFault} (htokens : source.tokens = (token :: rest, fault)) :
    TokenStream.Sound ⟨token, rest, fault, 0⟩ := by
  have hsplit := source.split_tokens
  rw [htokens] at hsplit
  dsimp only at hsplit
  rintro rfl
  obtain ⟨finish, hproper, hlexeme, -⟩ := hsplit.covered
  intro last hlast
  have hlast : last ∈ (token :: rest).getLast? := hlast
  rw [hproper, List.getLast?_append_cons] at hlast
  cases hlast
  exact hlexeme

/-- **A file is read up to the end token.** -/
theorem Source.declared_of_read {source : Source} {trees : List ProjectionTree}
    {stream : TokenStream} (h : source.read ProjectionTree.file = .ok (trees, stream)) :
    source.tokens.2 = none ∧ stream.current.kind = .finish ∧ stream.rest = [] ∧
      ProjectionTree.AllDeclare trees (Token.proper source.tokens.1) := by
  have hsplit := source.split_tokens
  rw [Source.read] at h
  cases htokens : source.tokens with
  | mk tokens fault =>
    rw [htokens] at hsplit h
    dsimp only at hsplit
    cases tokens with
    | nil => cases fault <;> cases h
    | cons token rest =>
      obtain ⟨passed, hdeclared, hconsumed, hfinish⟩ :=
        ProjectionTree.declared_of_file (parsers_inertly _) (Source.sound_of_tokens htokens) h
      obtain ⟨hfault, hbehind, hpassed⟩ := hsplit.eq_proper hconsumed.tokens_eq hfinish
      exact ⟨hfault, hfinish, hbehind, hpassed ▸ hdeclared⟩

/-- **A source is read to its end**, which is its first NUL if it has one. If it splits without
fault, then the text up to there is covered by tokens and gaps, and the end token stands behind it.
If it is read as a file, then it does split so, no token is left, and there is one projection for
each declaration. -/
theorem Source.read_to_end (source : Source) :
    (source.tokens.2 = none → ∃ finish, source.tokens.1 = Token.proper source.tokens.1 ++ [finish] ∧
      finish.lexeme = .finish ∧ Cursor.Covered source.reach (Token.proper source.tokens.1) ∧
      finish.span.start = Cursor.byteSize source.reach) ∧
    ∀ trees stream, source.read ProjectionTree.file = .ok (trees, stream) →
      source.tokens.2 = none ∧ stream.current.kind = .finish ∧ stream.rest = [] ∧
      List.Forall₂ (fun tree tokens => ∃ declaration, declaration <+: tokens ∧
        tree.Declares declaration) trees (declarations false (Token.proper source.tokens.1)) := by
  have hsplit := source.split_tokens
  refine ⟨fun hfault => ?_, fun trees stream h => ?_⟩
  · rw [hfault] at hsplit
    exact hsplit.covered
  · obtain ⟨hfault, hkind, hrest, hdeclared⟩ := Source.declared_of_read h
    exact ⟨hfault, hkind, hrest, hdeclared.forall₂ hsplit.legible⟩

/-- Behind a NUL there is no token, and no declaration is read. -/
theorem Source.read_to_end_nul :
    let source : Source := ⟨"t",
      "projection model#a \x7b to \x7b \x7d \x7d\x00 projection model#b \x7b to \x7b \x7d \x7d"⟩
    source.tokens.2 = none ∧ source.text.utf8ByteSize = 60 ∧
      (∃ finish, source.tokens.1 = Token.proper source.tokens.1 ++ [finish] ∧
        finish.span.start = 29) ∧
      ∃ trees stream, source.read ProjectionTree.file = .ok (trees, stream) ∧
        trees.map (·.name.text) = ["a"] ∧
        List.Forall₂ (fun tree tokens => ∃ declaration, declaration <+: tokens ∧
          tree.Declares declaration) trees (declarations false (Token.proper source.tokens.1)) := by
  intro source
  have hfault : source.tokens.2 = none := by decide +kernel
  have hsize : source.text.utf8ByteSize = 60 := by decide +kernel
  have hreach : Cursor.byteSize source.reach = 29 := by decide +kernel
  have hnames : (source.read ProjectionTree.file).toOption.map (·.1.map (·.name.text)) =
      some ["a"] := by decide +kernel
  obtain ⟨finish, htokens, -, -, hstart⟩ := source.read_to_end.1 hfault
  refine ⟨hfault, hsize, ⟨finish, htokens, hstart.trans hreach⟩, ?_⟩
  cases hread : source.read ProjectionTree.file with
  | error fault => rw [hread] at hnames; cases hnames
  | ok read =>
    rw [hread] at hnames
    exact ⟨read.1, read.2, rfl, Option.some.inj hnames,
      (source.read_to_end.2 read.1 read.2 hread).2.2.2⟩

end SchemaProjection
