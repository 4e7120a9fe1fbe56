import SchemaProjection.Proofs.Grammar.Statements

/-!
# Printed projections are read back

The last steps from a list of projections to its text and back. The lexemes of projections that can
be written down are legible (`legible_file`), so the text splits into tokens with these lexemes;
and on these tokens the grammar reads the projections back (`reads_file`).
`Source.projections_text` puts the two together: **reading inverts writing up to places, in every
style**. It makes no difference whether parentheses stand only where they are needed or around
every compound operand.
-/

namespace SchemaProjection

open Parse

variable {style : Style} {p : Parsers} {n : Nat} {after : List Lexeme}

/-! ### Everything that is written is legible -/

/-- Lexemes that are all legible. -/
def Legible (ls : List Lexeme) : Prop := ∀ l ∈ ls, l.Legible

theorem legible_nil : Legible [] := List.forall_mem_nil _

theorem Legible.cons {l : Lexeme} {ls : List Lexeme} (hl : l.Legible) (hls : Legible ls) :
    Legible (l :: ls) :=
  List.forall_mem_cons.mpr ⟨hl, hls⟩

theorem Legible.append {ls ls' : List Lexeme} (hls : Legible ls) (hls' : Legible ls') :
    Legible (ls ++ ls') :=
  List.forall_mem_append.mpr ⟨hls, hls'⟩

theorem Lexeme.Legible.identifier {text : String} (h : isIdentifier text) :
    (Lexeme.word text).Legible := by
  rw [isIdentifier, Bool.and_eq_true] at h
  exact .word h.1

theorem legible_enclosed {ls : List Lexeme} (h : Legible ls) : Legible (enclosed ls) :=
  (Legible.cons (.symbol rfl) h).append (legible_nil.cons (.symbol rfl))

theorem legible_intercalate : ∀ {items : List (List Lexeme)}, (∀ ls ∈ items, Legible ls) →
    Legible ([Lexeme.symbol ","].intercalate items)
  | [], _ => legible_nil
  | [ls], h => by
    rw [List.intercalate_singleton]
    exact h ls List.mem_cons_self
  | ls :: ls' :: items, h => by
    rw [List.intercalate_cons_cons]
    have hrest := legible_intercalate fun k hk => h k (List.mem_cons_of_mem _ hk)
    exact ((h ls List.mem_cons_self).append (legible_nil.cons (.symbol rfl))).append hrest

theorem legible_listed {items : List (List Lexeme)} (h : ∀ ls ∈ items, Legible ls) :
    Legible (listed items) :=
  legible_enclosed (legible_intercalate h)

theorem legible_listedWords {words : List Word} (h : words.all fun w => isIdentifier w.text) :
    Legible (listedWords words) := by
  refine legible_listed fun ls hls => ?_
  obtain ⟨w, hw, rfl⟩ := List.mem_map.mp hls
  exact legible_nil.cons (.identifier (List.all_eq_true.mp h w hw))

theorem legible_operand {level : Nat} {e : Expr} {ls : List Lexeme} (h : Legible ls) :
    Legible (style.operand level e ls) := by
  rw [Style.operand]
  split
  · exact legible_enclosed h
  · exact h

theorem legible_terminator (last : Bool) (s : Stmt) : Legible (style.terminator last s) := by
  have hsemicolon : Legible [.symbol ";"] := legible_nil.cons (.symbol rfl)
  cases s <;> rw [Style.terminator] <;> split <;> first | exact legible_nil | exact hsemicolon

theorem legible_sequence : ∀ (ss : List Stmt) {items : List (List Lexeme)},
    (∀ ls ∈ items, Legible ls) → Legible (style.sequence ss items)
  | s :: ss, ls :: items, h => by
    have hrest := legible_sequence ss fun k hk => h k (List.mem_cons_of_mem _ hk)
    exact ((h ls List.mem_cons_self).append (legible_terminator _ s)).append hrest
  | [], _, _ | _ :: _, [], _ => legible_nil

theorem legible_braced {ss : List Stmt} {items : List (List Lexeme)}
    (h : ∀ ls ∈ items, Legible ls) : Legible (style.braced ss items) :=
  (Legible.cons (.symbol rfl) (legible_sequence ss h)).append (legible_nil.cons (.symbol rfl))

theorem legible_alternative {ss : List Stmt} {items : List (List Lexeme)}
    (h : ∀ ls ∈ items, Legible ls) : Legible (style.alternative ss items) := by
  fun_cases style.alternative ss items with
  | case1 =>
    intro l hl
    obtain ⟨ls, hls, hl⟩ := List.mem_flatten.mp hl
    exact h ls hls l hl
  | case2 | case3 => exact legible_braced h

mutual

theorem legible_expr : ∀ {e : Expr}, e.writable → Legible (style.expr e)
  | .literal _ (.string s), _ => legible_nil.cons (.quoted s)
  | .literal _ (.number _), he => legible_nil.cons (.number he)
  | .literal _ (.bool b), _ => legible_nil.cons (.word (by cases b <;> rfl))
  | .name _, he => legible_nil.cons (.identifier he)
  | .member _ target field, he => by
    rw [Expr.writable, Bool.and_eq_true] at he
    exact (legible_operand (legible_expr he.1)).append
      (.cons (.symbol rfl) (legible_nil.cons (.word he.2)))
  | .call _ callee args, he => by
    simp only [Expr.writable, Bool.and_eq_true] at he
    exact (legible_operand (legible_expr he.1.2)).append (legible_listed (legible_exprs he.2))
  | .decorator _ name args, he => by
    rw [Expr.writable, Bool.and_eq_true] at he
    exact .cons (.symbol rfl) (.cons (.identifier he.1) (legible_listed (legible_exprs he.2)))
  | .project _ target name args, he => by
    simp only [Expr.writable, Bool.and_eq_true] at he
    refine (legible_operand (legible_expr he.1.1)).append
      (.cons (.symbol rfl) (.cons (.identifier he.1.2) ?_))
    split
    · exact legible_nil
    · exact legible_listed (legible_exprs he.2)
  | .lambda _ params body, he => by
    rw [Expr.writable, Bool.and_eq_true] at he
    exact (legible_listedWords he.1).append (.cons (.symbol rfl) (legible_block he.2))
  | .unary _ op operand, he =>
    .cons (.symbol (by cases op <;> rfl)) (legible_operand (legible_expr (e := operand) he))
  | .binary _ op lhs rhs, he => by
    rw [Expr.writable, Bool.and_eq_true] at he
    have hop : isSymbolText op.symbol := by rcases op with op | op | op <;> cases op <;> rfl
    exact (legible_operand (legible_expr he.1)).append
      (.cons (.symbol hop) (legible_operand (legible_expr he.2)))

theorem legible_exprs : ∀ {es : List Expr}, Expr.allWritable es → ∀ ls ∈ style.exprs es, Legible ls
  | [], _ => List.forall_mem_nil _
  | _ :: _, hes => by
    rw [Expr.allWritable, Bool.and_eq_true] at hes
    exact List.forall_mem_cons.mpr ⟨legible_expr hes.1, legible_exprs hes.2⟩

theorem legible_stmt : ∀ {s : Stmt}, s.writable → Legible (style.stmt s)
  | .expr _ e, hs => legible_expr (e := e) hs
  | .cond _ test body none, hs => by
    rw [Stmt.writable, Bool.and_eq_true] at hs
    exact (Legible.cons (.word rfl) (legible_expr hs.1)).append (legible_block hs.2)
  | .cond _ test body (some (.mk _ ss)), hs => by
    simp only [Stmt.writable, Bool.and_eq_true] at hs
    exact ((Legible.cons (.word rfl) (legible_expr hs.1.1)).append (legible_block hs.1.2)).append
      (.cons (.word rfl) (legible_alternative (legible_stmts hs.2)))
  | .ret _ e, hs => .cons (.word rfl) (legible_expr (e := e) hs)

theorem legible_stmts : ∀ {ss : List Stmt}, Stmt.allWritable ss → ∀ ls ∈ style.stmts ss, Legible ls
  | [], _ => List.forall_mem_nil _
  | _ :: _, hss => by
    rw [Stmt.allWritable, Bool.and_eq_true] at hss
    exact List.forall_mem_cons.mpr ⟨legible_stmt hss.1, legible_stmts hss.2⟩

theorem legible_block : ∀ {b : Block}, b.writable → Legible (style.block b)
  | .mk _ _, hb => legible_braced (legible_stmts hb)

end

theorem legible_direction {keyword : String} (hkeyword : isWord keyword) {tree : DirectionTree}
    (htree : tree.writable) : Legible (style.direction keyword tree) := by
  rw [DirectionTree.writable, Bool.and_eq_true] at htree
  refine (Legible.cons (.word hkeyword) ?_).append (legible_block htree.2)
  split
  · exact legible_nil
  · exact legible_listedWords htree.1

theorem legible_directions {keyword : String} (hkeyword : isWord keyword)
    {tree? : Option DirectionTree} (htree : tree?.all DirectionTree.writable) :
    Legible (tree?.toList.flatMap (style.direction keyword)) := by
  cases tree? with
  | none => exact legible_nil
  | some tree =>
    rw [Option.toList_some, List.flatMap_singleton]
    exact legible_direction hkeyword htree

theorem legible_projection {tree : ProjectionTree} (htree : tree.writable) :
    Legible (style.projection tree) := by
  simp only [ProjectionTree.writable, Bool.and_eq_true] at htree
  obtain ⟨⟨⟨hselector, hname⟩, hforward⟩, hbackward⟩ := htree
  have hhead : Legible [.word "projection", .word tree.selector.text, .symbol "#",
      .word tree.name.text, .symbol "\x7b"] :=
    .cons (.word rfl) (.cons (.identifier hselector) (.cons (.symbol rfl)
      (.cons (.identifier hname) (legible_nil.cons (.symbol rfl)))))
  exact (hhead.append ((legible_directions rfl hforward).append
    (legible_directions rfl hbackward))).append (legible_nil.cons (.symbol rfl))

theorem legible_file {trees : List ProjectionTree} (htrees : ∀ tree ∈ trees, tree.writable) :
    Legible (style.file trees) := by
  intro l hl
  obtain ⟨tree, htree, hl⟩ := List.mem_flatMap.mp hl
  exact legible_projection (htrees tree htree) l hl

/-! ### Declarations -/

namespace ProjectionTree

section Levels

variable (hp : p.Covers style n)

include hp

theorem reads_direction {keyword : String} {tree : DirectionTree} (htree : tree.writable)
    (hlength : (style.direction keyword tree).length ≤ n) :
    Reads (direction p) (style.direction keyword tree ++ after) (fun t => t.bare = tree.bare)
      after := by
  obtain ⟨treeSpan, params, body⟩ := tree
  rw [DirectionTree.writable, Bool.and_eq_true] at htree
  rw [Style.direction, List.length_append, List.length_cons] at hlength
  rw [Style.direction, List.append_assoc, List.cons_append]
  have hbody : Reads p.block (style.block body ++ after) (fun b => b.bare = body.bare) after :=
    hp.block htree.2 (Nat.le_of_add_left_le hlength)
  -- what is done behind the parameters, be there any or not
  have hclose : ∀ (span : Span) (words : List Word), words.map Word.bare = params.map Word.bare →
      Reads (do
        let body ← p.block
        return ⟨← closing span, words, body⟩) (style.block body ++ after)
        (fun t => DirectionTree.bare t = DirectionTree.bare ⟨treeSpan, params, body⟩) after := by
    intro span words hwords
    refine hbody.bind fun b hb => (reads_closing _).bind fun _ _ => .pure ?_
    rw [DirectionTree.bare, DirectionTree.bare, hwords, hb]
  refine reads_current.bind fun token _ => reads_advance.bind fun _ _ => reads_label_bind ?_
  cases params with
  | nil =>
    rw [List.isEmpty_nil, if_pos rfl, List.nil_append, label_front_block, if_neg (by decide)]
    exact hclose _ [] rfl
  | cons word words =>
    rw [List.isEmpty_cons, if_neg Bool.false_ne_true]
    exact (Parsers.reads_parameters _ htree.1).bind fun ws hws => hclose _ ws hws

omit hp in
/-- Directions that are those of a projection up to places. -/
def IsRead (forward? backward? : Option DirectionTree)
    (read : Option DirectionTree × Option DirectionTree) : Prop :=
  read.1.map DirectionTree.bare = forward?.map DirectionTree.bare ∧
    read.2.map DirectionTree.bare = backward?.map DirectionTree.bare

omit hp in
/-- At most one round reads the directions of a keyword, that of the direction if there is one. -/
theorem advances_directions {keyword : String} {tree? : Option DirectionTree}
    {Q : Option DirectionTree → Option DirectionTree × Option DirectionTree → Prop}
    (hround : ∀ tree, tree? = some tree → ∀ read, Q none read →
      Reads (direction? p read) (style.direction keyword tree ++ after)
        (fun next => ∃ read', next = some read' ∧ Q (some tree) read') after) :
    Advances (direction? p) (Q none) (tree?.toList.flatMap (style.direction keyword) ++ after)
      (Q tree?) after := by
  cases tree? with
  | none => exact .refl
  | some tree =>
    rw [Option.toList_some, List.flatMap_singleton]
    refine .one ?_ (hround tree rfl)
    rw [List.length_append]
    exact Nat.lt_add_of_pos_left (Nat.succ_pos _)

theorem advances_forward {forward? : Option DirectionTree}
    (hforward : forward?.all DirectionTree.writable)
    (hlength : (forward?.toList.flatMap (style.direction "to")).length ≤ n) :
    Advances (direction? p) (IsRead none none)
      (forward?.toList.flatMap (style.direction "to") ++ after) (IsRead forward? none) after := by
  refine advances_directions (Q := (IsRead · none)) ?_
  rintro tree rfl ⟨forward, backward⟩ ⟨hnone, hbackward⟩
  rw [Option.toList_some, List.flatMap_singleton] at hlength
  obtain rfl : forward = none := Option.map_eq_none_iff.mp hnone
  refine reads_current.bind fun token htoken => ?_
  have hlabel : token.label = "to" := congrArg Lexeme.label htoken
  rw [hlabel, if_neg (by decide), if_pos rfl, if_neg (by simp)]
  exact (reads_direction hp hforward hlength).bind fun t ht =>
    .pure ⟨_, rfl, congrArg some ht, hbackward⟩

theorem advances_backward {forward? backward? : Option DirectionTree}
    (hbackward : backward?.all DirectionTree.writable)
    (hlength : (backward?.toList.flatMap (style.direction "from")).length ≤ n) :
    Advances (direction? p) (IsRead forward? none)
      (backward?.toList.flatMap (style.direction "from") ++ after) (IsRead forward? backward?)
      after := by
  refine advances_directions (Q := IsRead forward?) ?_
  rintro tree rfl ⟨forward, backward⟩ ⟨hforward, hnone⟩
  rw [Option.toList_some, List.flatMap_singleton] at hlength
  obtain rfl : backward = none := Option.map_eq_none_iff.mp hnone
  refine reads_current.bind fun token htoken => ?_
  have hlabel : token.label = "from" := congrArg Lexeme.label htoken
  rw [hlabel, if_neg (by decide), if_neg (by decide), if_pos rfl, if_neg (by simp)]
  exact (reads_direction hp hbackward hlength).bind fun t ht =>
    .pure ⟨_, rfl, hforward, congrArg some ht⟩

/-- **Projections are read back.** -/
theorem reads_projection {tree : ProjectionTree} (htree : tree.writable)
    (hlength : (style.projection tree).length ≤ n) :
    Reads (ProjectionTree.parse p) (style.projection tree ++ after) (fun t => t.bare = tree.bare)
      after := by
  obtain ⟨treeSpan, selector, name, forward?, backward?⟩ := tree
  simp only [writable, Bool.and_eq_true] at htree
  obtain ⟨⟨⟨hselector, hname⟩, hforward⟩, hbackward⟩ := htree
  simp only [Style.projection, List.length_append] at hlength
  have hdirections : Reads (iterate (direction? p) (none, none))
      (forward?.toList.flatMap (style.direction "to") ++
        (backward?.toList.flatMap (style.direction "from") ++ .symbol "\x7d" :: after))
      (IsRead forward? backward?) (.symbol "\x7d" :: after) := by
    refine reads_iterate ((advances_forward hp hforward (by omega)).trans
      (advances_backward hp hbackward (by omega))) ⟨rfl, rfl⟩ ?_
    -- the brace ends the directions
    rintro ⟨forward, backward⟩ -
    refine reads_current.bind fun token htoken => ?_
    have hlabel : token.label = "\x7d" := congrArg Lexeme.label htoken
    rw [if_pos hlabel]
    exact .pure rfl
  rw [Style.projection, List.append_assoc, List.append_assoc, List.append_assoc]
  refine reads_current.bind fun token _ => (reads_expect _ rfl).bind fun _ _ => ?_
  refine (reads_identifier hselector).bind fun w hw => (reads_expect _ rfl).bind fun _ _ => ?_
  refine (reads_identifier hname).bind fun v hv => (reads_expect _ rfl).bind fun _ _ => ?_
  refine hdirections.bind ?_
  rintro ⟨forward, backward⟩ ⟨hforward, hbackward⟩
  refine (reads_expect _ rfl).bind fun _ _ => (reads_closing _).bind fun _ _ => .pure ?_
  rw [bare, bare, hw, hv, hforward, hbackward]

omit hp in
/-- No directive stands in front of a projection. -/
theorem reads_directives {ls : List Lexeme} (h : (front ls).label ≠ "#") :
    Reads directives ls (fun _ => True) ls := by
  refine reads_iterate (P := fun _ => True) .refl trivial fun _ _ => reads_label_bind ?_
  rw [if_pos h]
  exact .pure rfl

omit hp in
/-- What stands behind a projection is no semicolon. -/
theorem label_front_file (trees : List ProjectionTree) :
    (front (style.file trees)).label ≠ ";" := by
  cases trees with
  | nil => exact (by decide : "" ≠ ";")
  | cons tree trees => exact (by decide : "projection" ≠ ";")

/-- **Projections are read in rounds**, one for each. -/
theorem advances_file {trees : List ProjectionTree} (htrees : ∀ tree ∈ trees, tree.writable)
    (hlength : (style.file trees).length ≤ n) (done : List ProjectionTree) :
    Advances (next? p) (fun read => read.map bare = done) (style.file trees)
      (fun read => read.map bare = (trees.map bare).reverse ++ done) [] := by
  induction trees generalizing done with
  | nil => exact .refl
  | cons tree trees ih =>
    obtain ⟨htree, htrees⟩ := List.forall_mem_cons.mp htrees
    rw [Style.file, List.flatMap_cons, List.length_append] at hlength
    have hrest := ih htrees (Nat.le_of_add_left_le hlength) (tree.bare :: done)
    rw [List.map_cons, List.reverse_cons, List.append_assoc, Style.file, List.flatMap_cons]
    refine .trans (.one ?_ fun read hread => ?_) hrest
    · rw [List.length_append, Style.file]
      exact Nat.lt_add_of_pos_left (Nat.succ_pos _)
    · have hne : (front (style.projection tree ++ style.file trees)).label ≠ "#" :=
        (by decide : "projection" ≠ "#")
      refine (reads_directives hne).bind fun _ _ => reads_current.bind fun token htoken => ?_
      have hkind : token.kind = .name := congrArg Lexeme.kind htoken
      rw [hkind, if_neg (by decide)]
      refine (reads_projection hp htree (by omega)).bind fun t ht => ?_
      refine (reads_skip_of_ne (label_front_file trees)).bind fun _ _ => .pure ⟨_, rfl, ?_⟩
      rw [List.map_cons, ht, hread]

/-- **Files are read back.** -/
theorem reads_file {trees : List ProjectionTree} (htrees : ∀ tree ∈ trees, tree.writable)
    (hlength : (style.file trees).length ≤ n) :
    Reads (file p) (style.file trees) (fun read => read.map bare = trees.map bare) [] := by
  have htrees : Reads (iterate (next? p) []) (style.file trees)
      (fun read => read.map bare = (trees.map bare).reverse ++ []) [] := by
    refine reads_iterate (advances_file hp htrees hlength []) rfl fun read _ => ?_
    -- the round at the end token ends the file
    have hne : (front []).label ≠ "#" := (by decide : "" ≠ "#")
    refine (reads_directives hne).bind fun _ _ => reads_current.bind fun token htoken => ?_
    have hkind : token.kind = .finish := congrArg Lexeme.kind htoken
    rw [if_pos hkind]
    exact .pure rfl
  refine htrees.bind fun read hread => .pure ?_
  rw [List.map_reverse, hread, List.append_nil, List.reverse_reverse]

end Levels

end ProjectionTree

/-- A projection with operators that need parentheses, and with a condition behind `else`. -/
def ratioTree : ProjectionTree :=
  let word (text : String) : Word := ⟨text, default⟩
  let name (text : String) : Expr := .name (word text)
  let text (s : String) : Expr := .literal default (.string s)
  let binary (op : BinaryOp) : Expr → Expr → Expr := .binary default op
  let block (stmts : List Stmt) : Block := .mk default stmts
  let difference := binary (.arithmetic .sub) (name "b") (.literal default (.number "1.5"))
  let each := .lambda default [word "item"] (block [.expr default (.call default
    (.member default (name "item") (word "if")) [text "\"\n"])])
  let test := .unary default .not (binary (.logic .or) (name "a")
    (binary (.compare .lt) (name "a") difference))
  let inner := .cond default (name "a") (block [.expr default (.call default (name "each") [each])])
    (some (block [.ret default (.project default difference (word "short") [])]))
  ⟨default, word "Node", word "ratio",
    some ⟨default, [word "a", word "b"],
      block [.cond default test
        (block [.ret default (binary (.arithmetic .sub) (name "a") difference)])
        (some (block [inner]))]⟩,
    some ⟨default, [], block [.ret default (.decorator default (word "doc") [difference])]⟩⟩

end SchemaProjection
