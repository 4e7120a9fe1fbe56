import SchemaProjection.Proofs.Grammar.Printing

/-!
# Programs up to spans

What a projection does when it succeeds does not depend on where its text stands. So a statement
about a program speaks of its **form**, the tree without spans, and holds of every tree of that
form. The forms of a program are put together from a few parts (`Form.name`, `Form.member` and the
ones after it), and what a tree of a form looks like can be read off the form
(`Expr.eq_name_of_bare` and the lemmas after it).

Equality of trees is decidable (`Expr.same_iff`), so that it can be computed which form the text of
a source has (`Source.hasForms`).
-/

namespace SchemaProjection

/-! ### Equality of trees -/

mutual

/-- Whether two expressions are the same. -/
def Expr.same : Expr → Expr → Bool
  | .literal s v, .literal s' v' => s = s' && v = v'
  | .name w, .name w' => w = w'
  | .member s t w, .member s' t' w' => s = s' && (w = w' && t.same t')
  | .call s c as, .call s' c' as' => s = s' && (c.same c' && Expr.sames as as')
  | .decorator s w as, .decorator s' w' as' => s = s' && (w = w' && Expr.sames as as')
  | .project s t w as, .project s' t' w' as' =>
    s = s' && (w = w' && (t.same t' && Expr.sames as as'))
  | .lambda s ps b, .lambda s' ps' b' => s = s' && (ps = ps' && b.same b')
  | .unary s op e, .unary s' op' e' => s = s' && (op = op' && e.same e')
  | .binary s op l r, .binary s' op' l' r' => s = s' && (op = op' && (l.same l' && r.same r'))
  | _, _ => false

def Expr.sames : List Expr → List Expr → Bool
  | [], [] => true
  | e :: es, e' :: es' => e.same e' && Expr.sames es es'
  | _, _ => false

def Stmt.same : Stmt → Stmt → Bool
  | .expr s e, .expr s' e' => s = s' && e.same e'
  | .cond s t b none, .cond s' t' b' none => s = s' && (t.same t' && b.same b')
  | .cond s t b (some o), .cond s' t' b' (some o') =>
    s = s' && (t.same t' && (b.same b' && o.same o'))
  | .ret s e, .ret s' e' => s = s' && e.same e'
  | _, _ => false

def Stmt.sames : List Stmt → List Stmt → Bool
  | [], [] => true
  | s :: ss, s' :: ss' => s.same s' && Stmt.sames ss ss'
  | _, _ => false

def Block.same : Block → Block → Bool
  | .mk s ss, .mk s' ss' => s = s' && Stmt.sames ss ss'

end

mutual

theorem Expr.same_iff : (a b : Expr) → (a.same b = true ↔ a = b)
  | .literal s v, b => by cases b <;> simp [Expr.same]
  | .name w, b => by cases b <;> simp [Expr.same]
  | .member s t w, b => by cases b <;> simp [Expr.same, Expr.same_iff t, and_comm]
  | .call s c as, b => by cases b <;> simp [Expr.same, Expr.same_iff c, Expr.sames_iff as]
  | .decorator s w as, b => by cases b <;> simp [Expr.same, Expr.sames_iff as]
  | .project s t w as, b => by
    cases b <;> simp [Expr.same, Expr.same_iff t, Expr.sames_iff as, and_left_comm]
  | .lambda s ps body, b => by cases b <;> simp [Expr.same, Block.same_iff body]
  | .unary s op e, b => by cases b <;> simp [Expr.same, Expr.same_iff e]
  | .binary s op l r, b => by cases b <;> simp [Expr.same, Expr.same_iff l, Expr.same_iff r]

theorem Expr.sames_iff : (as bs : List Expr) → (Expr.sames as bs = true ↔ as = bs)
  | [], bs => by cases bs <;> simp [Expr.sames]
  | e :: es, bs => by cases bs <;> simp [Expr.sames, Expr.same_iff e, Expr.sames_iff es]

theorem Stmt.same_iff : (a b : Stmt) → (a.same b = true ↔ a = b)
  | .expr s e, b => by cases b <;> simp [Stmt.same, Expr.same_iff e]
  | .cond s t body none, b => by
    rcases b with _ | ⟨_, _, _, _ | _⟩ | _ <;>
      simp [Stmt.same, Expr.same_iff t, Block.same_iff body]
  | .cond s t body (some o), b => by
    rcases b with _ | ⟨_, _, _, _ | _⟩ | _ <;>
      simp [Stmt.same, Expr.same_iff t, Block.same_iff body, Block.same_iff o]
  | .ret s e, b => by cases b <;> simp [Stmt.same, Expr.same_iff e]

theorem Stmt.sames_iff : (as bs : List Stmt) → (Stmt.sames as bs = true ↔ as = bs)
  | [], bs => by cases bs <;> simp [Stmt.sames]
  | s :: ss, bs => by cases bs <;> simp [Stmt.sames, Stmt.same_iff s, Stmt.sames_iff ss]

theorem Block.same_iff : (a b : Block) → (a.same b = true ↔ a = b)
  | .mk s ss, .mk s' ss' => by simp [Block.same, Stmt.sames_iff ss]

end
instance : DecidableEq Expr := fun a b => decidable_of_iff _ (a.same_iff b)

instance : DecidableEq Block := fun a b => decidable_of_iff _ (a.same_iff b)

deriving instance DecidableEq for DirectionTree

deriving instance DecidableEq for ProjectionTree

/-- Whether the projections of a source have the given forms. -/
def Source.hasForms (source : Source) (forms : List ProjectionTree) : Bool :=
  match source.projections with
  | .ok trees => trees.map ProjectionTree.bare = forms
  | .error _ => false

theorem Source.bare_of_hasForms {source : Source} {forms trees : List ProjectionTree}
    (h : source.hasForms forms) (htrees : source.projections = .ok trees) :
    trees.map ProjectionTree.bare = forms := by
  rw [hasForms, htrees] at h
  exact of_decide_eq_true h

/-- Whether the projections behind a cursor have the given forms. -/
def Cursor.hasForms (file : String) (cursor : Cursor) (forms : List ProjectionTree) : Bool :=
  match cursor.tokens file (cursor.rest.length + 1) with
  | (token :: rest, fault) =>
    match (ProjectionTree.file (parsers (rest.length + 2))).run ⟨token, rest, fault, 0⟩ with
    | .ok (trees, _) => trees.map ProjectionTree.bare = forms
    | .error _ => false
  | ([], _) => false

/-- The forms of a text can be computed line by line. Decoding a long text as a whole takes much
longer than decoding its lines. -/
theorem Source.hasForms_of_lines {file : String} {lines : List String} {forms : List ProjectionTree}
    (h : Cursor.hasForms file ⟨lines.flatMap String.toList, 0, 1, 1⟩ forms) :
    Source.hasForms ⟨file, String.join lines⟩ forms := by
  rw [Cursor.hasForms] at h
  rw [hasForms, projections, read, tokens, Cursor.ofSource, String.toList_join]
  dsimp only at h ⊢
  split at h
  · next token rest fault htokens =>
    rw [htokens]
    dsimp only
    split at h
    · next trees s hrun =>
      rw [hrun]
      exact h
    · cases h
  · cases h

/-! ### Forms -/

namespace Form

def word (text : String) : Word := ⟨text, default⟩

def name (text : String) : Expr := .name (word text)

def member (target : Expr) (field : String) : Expr := .member default target (word field)

def call (callee : Expr) (args : List Expr) : Expr := .call default callee args

def compare (op : CompareOp) (lhs rhs : Expr) : Expr := .binary default (.compare op) lhs rhs

def block (stmts : List Stmt) : Block := .mk default stmts

def lambda (params : List String) (body : Block) : Expr := .lambda default (params.map word) body

def stmt (e : Expr) : Stmt := .expr default e

def cond (test : Expr) (body : Block) (otherwise : Option Block) : Stmt :=
  .cond default test body otherwise

end Form

namespace Expr

variable {e : Expr}

theorem eq_name_of_bare {text : String} (h : e.bare = Form.name text) :
    ∃ w : Word, e = .name w ∧ w.text = text := by
  cases e with
  | name w =>
    cases h
    exact ⟨w, rfl, rfl⟩
  | _ => cases h

theorem eq_member_of_bare {target : Expr} {field : String} (h : e.bare = Form.member target field) :
    ∃ span t, ∃ w : Word, e = .member span t w ∧ t.bare = target ∧ w.text = field := by
  cases e with
  | member span t w =>
    cases h
    exact ⟨span, t, w, rfl, rfl, rfl⟩
  | _ => cases h

theorem eq_call_of_bare {callee : Expr} {args : List Expr} (h : e.bare = Form.call callee args) :
    ∃ span c as, e = .call span c as ∧ c.bare = callee ∧ as.map bare = args := by
  cases e with
  | call span c as =>
    cases h
    exact ⟨span, c, as, rfl, rfl, (bares_eq_map as).symm⟩
  | _ => cases h

theorem eq_compare_of_bare {op : CompareOp} {lhs rhs : Expr}
    (h : e.bare = Form.compare op lhs rhs) :
    ∃ span l r, e = .binary span (.compare op) l r ∧ l.bare = lhs ∧ r.bare = rhs := by
  cases e with
  | binary span op' l r =>
    cases h
    exact ⟨span, l, r, rfl, rfl, rfl⟩
  | _ => cases h

theorem eq_lambda_of_bare {params : List String} {body : Block}
    (h : e.bare = Form.lambda params body) :
    ∃ span ps b, e = .lambda span ps b ∧ ps.map Word.text = params ∧ b.bare = body := by
  cases e with
  | lambda span ps b =>
    obtain ⟨-, hparams, hbody⟩ := Expr.lambda.inj h
    have htexts := congrArg (List.map Word.text) hparams
    rw [List.map_map, List.map_map] at htexts
    exact ⟨span, ps, b, rfl, htexts.trans (List.map_id _), hbody⟩
  | _ => cases h

end Expr

namespace Stmt

variable {s : Stmt}

theorem eq_expr_of_bare {form : Expr} (h : s.bare = Form.stmt form) :
    ∃ span e, s = .expr span e ∧ e.bare = form := by
  cases s with
  | expr span e =>
    cases h
    exact ⟨span, e, rfl, rfl⟩
  | cond span t b o =>
    rw [bare_cond] at h
    cases h
  | ret => cases h

theorem eq_cond_of_bare {test : Expr} {body : Block} {otherwise : Option Block}
    (h : s.bare = Form.cond test body otherwise) :
    ∃ span t b o, s = .cond span t b o ∧ t.bare = test ∧ b.bare = body ∧
      o.map Block.bare = otherwise := by
  cases s with
  | cond span t b o =>
    rw [bare_cond] at h
    cases h
    exact ⟨_, _, _, _, rfl, rfl, rfl, rfl⟩
  | expr | ret => cases h

end Stmt

theorem Block.eq_of_bare {b : Block} {forms : List Stmt} (h : b.bare = Form.block forms) :
    ∃ span ss, b = .mk span ss ∧ ss.map Stmt.bare = forms := by
  cases b with
  | mk span ss =>
    rw [Block.bare, Stmt.bares_eq_map] at h
    cases h
    exact ⟨span, ss, rfl, rfl⟩

end SchemaProjection
