import SchemaProjection.Proofs.Run.Frames

/-!
# Call trees

Evaluation is a recursion: to evaluate an expression, a block or an application, evaluation one
level up (`Evaluator.next`) asks for the parts. A `CallTree` records such a recursion: what was
asked for (`Query`), the state in which it was asked, what it came to, and below it, in order, the
trees of everything that was asked for on the way.

A tree can say anything. What makes it **valid** (`CallTree.Valid`) is that at each of its nodes
evaluation one level up makes exactly the recorded calls (`Makes`): if these are answered as
recorded, it comes to what is recorded, and none of the calls can be left out, since it fails as
soon as one of them does. The failure is the same one, unless there is nothing to close on the way
out (`Failure.OfClosing`).

So a valid tree is a witness that evaluation ends, and its height is the depth of the recursion. An
evaluator with that many levels comes to what the tree says, and what stands below them is never
asked (`CallTree.Valid.answered`).

The **log** of a tree lists what happens in it from the beginning to the end: where the evaluation
of an expression or a block starts, and how an application is dealt with, with an entry for each
time that a body is evaluated.
-/

namespace SchemaProjection

/-! ### Queries -/

/-- What an evaluator is asked for. -/
inductive Query
  | expr (e : Expr)
  | block (b : Block)
  | apply (node : NodeId) (projection : Projection) (direction : Direction) (args : List Value)

/-- What an answer is. -/
def Query.Answer : Query → Type
  | .expr _ => Operand
  | .block _ => Flow
  | .apply _ _ _ _ => NodeId

/-- The part of an evaluator that a query is about. -/
def Evaluator.ask (ev : Evaluator) : (q : Query) → Eval q.Answer
  | .expr e => ev.expr e
  | .block b => ev.block b
  | .apply node projection direction args => ev.apply node projection direction args

/-! ### Trees -/

/-- **A call tree**: a query, the state in which it is asked, what it comes to, and the trees of
the queries that are asked on the way. -/
inductive CallTree
  | mk (query : Query) (start : Run) (ending : EStateM.Result Failure Run query.Answer)
    (inside : List CallTree)

namespace CallTree

mutual

/-- How deep the recursion is. -/
def height : CallTree → Nat
  | .mk _ _ _ inside => heights inside + 1

/-- The height of the tallest of some trees. -/
def heights : List CallTree → Nat
  | [] => 0
  | t :: ts => max t.height (heights ts)

end

theorem height_pos (t : CallTree) : 0 < t.height := by
  cases t
  exact Nat.succ_pos _

theorem height_le_heights {t : CallTree} {ts : List CallTree} (ht : t ∈ ts) :
    t.height ≤ heights ts := by
  induction ts with
  | nil => cases ht
  | cons u rest ih =>
    rw [heights]
    cases ht with
    | head => exact Nat.le_max_left _ _
    | tail _ hrest => exact Nat.le_trans (ih hrest) (Nat.le_max_right _ _)

theorem heights_le {ts : List CallTree} {n : Nat} (h : ∀ t ∈ ts, t.height ≤ n) :
    heights ts ≤ n := by
  induction ts with
  | nil => exact Nat.zero_le n
  | cons u rest ih =>
    rw [heights]
    exact Nat.max_le.mpr ⟨h u List.mem_cons_self, ih fun t ht => h t (List.mem_cons_of_mem u ht)⟩

variable (setting : Setting) (ev : Evaluator)

/-- An evaluator answers as the root of a tree says. -/
def Answered : CallTree → Prop
  | .mk query start ending _ => (ev.ask query).result setting start = ending

/-- An evaluator fails on what the root of a tree asks for. -/
def Refused (failure : Failure) : CallTree → Prop
  | .mk query start _ _ => ∃ after, (ev.ask query).result setting start = .error failure after

end CallTree

/-! ### Calls that a step makes -/

section

variable {setting : Setting} {run after : Run} {α β : Type}

/-- A step passes a failure on, unless closing fails as well. -/
def PassesOn (setting : Setting) (run : Run) (x : Eval α) (failure : Failure) : Prop :=
  ∃ shown after, x.result setting run = .error shown after ∧ (shown = failure ∨ shown.OfClosing)

/-- A step that fails only if there is nothing to close. -/
def ClosesOnly (setting : Setting) (close : Eval β) : Prop :=
  ∀ run failure after, close.result setting run = .error failure after → failure.OfClosing

namespace PassesOn

variable {x : Eval α} {failure : Failure}

theorem bind (h : PassesOn setting run x failure) (f : α → Eval β) :
    PassesOn setting run (x >>= f) failure := by
  obtain ⟨shown, after, hfails, hshown⟩ := h
  exact ⟨shown, after, by rw [Eval.result_bind, hfails], hshown⟩

theorem closing (h : PassesOn setting run x failure) {close : Eval β}
    (hclose : ClosesOnly setting close) :
    PassesOn setting run (Eval.closing x close) failure := by
  obtain ⟨shown, middle, hfails, hshown⟩ := h
  rw [PassesOn, Eval.result_closing, hfails, Eval.closed]
  cases hresult : close.result setting middle with
  | ok b after => exact ⟨shown, after, rfl, hshown⟩
  | error shown' after => exact ⟨shown', after, rfl, .inr (hclose middle shown' after hresult)⟩

end PassesOn

/-- **A step makes calls.** The step is given as it depends on an evaluator. The calls decide what
it comes to, and they are made one after the other: if one of them fails, once those before it have
been answered, the step passes the failure on. -/
structure Makes (setting : Setting) (run : Run) (x : Evaluator → Eval α) (calls : List CallTree)
    (ending : EStateM.Result Failure Run α) : Prop where
  decides : ∀ ev, (∀ t ∈ calls, t.Answered setting ev) → (x ev).result setting run = ending
  in_turn : ∀ front t back, calls = front ++ t :: back → ∀ ev failure,
    (∀ u ∈ front, u.Answered setting ev) → t.Refused setting ev failure →
      PassesOn setting run (x ev) failure

namespace Makes

/-- A step that asks for nothing. -/
theorem const (x : Eval α) : Makes setting run (fun _ => x) [] (x.result setting run) where
  decides _ _ := rfl
  in_turn front t back h :=
    absurd h.symm (List.append_ne_nil_of_right_ne_nil front (List.cons_ne_nil t back))

/-- The call itself. -/
theorem ask (query : Query) (ending : EStateM.Result Failure Run query.Answer)
    (inside : List CallTree) :
    Makes setting run (fun ev => ev.ask query) [.mk query run ending inside] ending where
  decides _ h := h _ List.mem_cons_self
  in_turn front t back h ev failure _ hrefused := by
    cases front with
    | nil =>
      cases h
      obtain ⟨after, hfails⟩ := hrefused
      exact ⟨failure, after, hfails, .inl rfl⟩
    | cons u rest => simp at h

/-- A step that does what another one does from another state on. -/
theorem congr {x y : Evaluator → Eval α} {start : Run} {calls : List CallTree}
    {ending : EStateM.Result Failure Run α} (hx : Makes setting start x calls ending)
    (h : ∀ ev, (y ev).result setting run = (x ev).result setting start) :
    Makes setting run y calls ending where
  decides ev hcalls := (h ev).trans (hx.decides ev hcalls)
  in_turn front t back hsplit ev failure hfront hrefused := by
    rw [PassesOn, h ev]
    exact hx.in_turn front t back hsplit ev failure hfront hrefused

/-- Nothing is asked for after a failure. -/
theorem bind_error {x : Evaluator → Eval α} {calls : List CallTree} {failure : Failure}
    (hx : Makes setting run x calls (.error failure after)) (f : α → Evaluator → Eval β) :
    Makes setting run (fun ev => x ev >>= fun a => f a ev) calls (.error failure after) where
  decides ev hcalls := by rw [Eval.result_bind, hx.decides ev hcalls]
  in_turn front t back hsplit ev failure hfront hrefused :=
    (hx.in_turn front t back hsplit ev failure hfront hrefused).bind fun a => f a ev

/-- **Sequencing.** The calls of the first step come before those of the second. -/
theorem bind {x : Evaluator → Eval α} {f : α → Evaluator → Eval β} {first second : List CallTree}
    {a : α} {ending : EStateM.Result Failure Run β} (hx : Makes setting run x first (.ok a after))
    (hf : Makes setting after (f a) second ending) :
    Makes setting run (fun ev => x ev >>= fun a => f a ev) (first ++ second) ending where
  decides ev hcalls := by
    obtain ⟨hfirst, hsecond⟩ := List.forall_mem_append.mp hcalls
    rw [Eval.result_bind_of_ok (hx.decides ev hfirst)]
    exact hf.decides ev hsecond
  in_turn front t back hsplit ev failure hfront hrefused := by
    -- the call that fails belongs to the first step or to the second one
    rcases List.append_eq_append_iff.mp hsplit with ⟨more, rfl, hsecond⟩ | ⟨more, hfirst, hback⟩
    · obtain ⟨hfirst, hmore⟩ := List.forall_mem_append.mp hfront
      rw [PassesOn, Eval.result_bind_of_ok (hx.decides ev hfirst)]
      exact hf.in_turn more t back hsecond ev failure hmore hrefused
    · cases more with
      | nil =>
        rw [List.append_nil] at hfirst
        subst hfirst
        rw [PassesOn, Eval.result_bind_of_ok (hx.decides ev hfront)]
        exact hf.in_turn [] t back hback.symm ev failure (List.forall_mem_nil _) hrefused
      | cons u rest =>
        cases hback
        exact (hx.in_turn front t rest hfirst ev failure hfront hrefused).bind fun a => f a ev

/-- Closing asks for nothing. -/
theorem closing {x : Evaluator → Eval α} {calls : List CallTree}
    {ending : EStateM.Result Failure Run α} (hx : Makes setting run x calls ending)
    {close : Eval β} (hclose : ClosesOnly setting close) :
    Makes setting run (fun ev => Eval.closing (x ev) close) calls
      (Eval.closed close setting ending) where
  decides ev hcalls := by rw [Eval.result_closing, hx.decides ev hcalls]
  in_turn front t back hsplit ev failure hfront hrefused :=
    (hx.in_turn front t back hsplit ev failure hfront hrefused).closing hclose

section

variable {x : Evaluator → Eval α} {calls : List CallTree} {close : Eval β} {middle : Run} {b : β}
  (hclose : ClosesOnly setting close) (hclosed : close.result setting middle = .ok b after)
include hclose hclosed

theorem closing_ok {a : α} (hx : Makes setting run x calls (.ok a middle)) :
    Makes setting run (fun ev => Eval.closing (x ev) close) calls (.ok (a, b) after) :=
  Eval.closed_ok hclosed ▸ hx.closing hclose

theorem closing_error {failure : Failure} (hx : Makes setting run x calls (.error failure middle)) :
    Makes setting run (fun ev => Eval.closing (x ev) close) calls (.error failure after) :=
  Eval.closed_error hclosed ▸ hx.closing hclose

end

end Makes

end

/-! ### Valid trees -/

/-- **A valid tree**: at each of its nodes, evaluation one level up makes the calls below it and
comes to what is recorded. -/
inductive CallTree.Valid (setting : Setting) : CallTree → Prop
  | mk {query : Query} {start : Run} {ending : EStateM.Result Failure Run query.Answer}
    {inside : List CallTree}
    (makes : Makes setting start (fun ev => ev.next.ask query) inside ending)
    (valid : ∀ t ∈ inside, Valid setting t) : Valid setting (.mk query start ending inside)

/-- Evaluation with a number of levels above a given evaluator. -/
def Evaluator.above (bottom : Evaluator) : (levels : Nat) → Evaluator
  | 0 => bottom
  | levels + 1 => (above bottom levels).next

theorem Evaluator.above_evaluator (levels : Nat) :
    (evaluator 0).above levels = evaluator levels := by
  induction levels with
  | zero => rfl
  | succ levels ih => rw [above, ih, evaluator_succ]

/-- **As many levels as a valid tree is high are enough.** They come to what the tree says,
whatever evaluator stands below them. -/
theorem CallTree.Valid.answered {setting : Setting} {t : CallTree} (h : t.Valid setting)
    (bottom : Evaluator) {levels : Nat} (hheight : t.height ≤ levels) :
    t.Answered setting (bottom.above levels) := by
  induction h generalizing levels with
  | @mk query start ending inside makes valid ih =>
    cases levels with
    | zero => exact absurd hheight (Nat.not_le.mpr (height_pos _))
    | succ levels =>
      -- the calls below the root are lower, so one level less is enough for each of them
      have hinside : heights inside ≤ levels := by
        rw [height] at hheight
        omega
      exact makes.decides (bottom.above levels) fun t ht =>
        ih t ht (Nat.le_trans (height_le_heights ht) hinside)

theorem CallTree.Valid.answered_evaluator {setting : Setting} {t : CallTree} (h : t.Valid setting)
    {levels : Nat} (hheight : t.height ≤ levels) : t.Answered setting (evaluator levels) := by
  have hanswered := h.answered (evaluator 0) hheight
  rw [Evaluator.above_evaluator] at hanswered
  exact hanswered

/-! ### Logs -/

/-- What happens in a run, as far as applications are concerned. -/
inductive LogEntry
  /-- The evaluation of an expression or a block starts in a state. -/
  | starts (run : Run)
  /-- The evaluation of the body of a projection starts. -/
  | enters (key : MemoKey)
  /-- The body of a projection is left, with what has become of the node. -/
  | leaves (key : MemoKey) (result : NodeId)
  /-- An application has a result without its body being entered. -/
  | returns (key : MemoKey) (result : NodeId)
  /-- An application fails without its body being entered. -/
  | refuses (key : MemoKey)

/-- What an application logs: an entry in front of each evaluation of the body, and how it ends. All
that an application asks for is that the body is evaluated. -/
def Query.logApplication (key : MemoKey) :
    (ending : EStateM.Result Failure Run NodeId) → (bodies : List (List LogEntry)) → List LogEntry
  | .ok result _, [] => [.returns key result]
  | .error _ _, [] => [.refuses key]
  | .ok result _, bodies => bodies.flatMap (.enters key :: ·) ++ [.leaves key result]
  | .error _ _, bodies => bodies.flatMap (.enters key :: ·)

/-- What a query logs, given the logs of what it asks for. -/
def Query.log (start : Run) : (query : Query) → EStateM.Result Failure Run query.Answer →
    (inside : List (List LogEntry)) → List LogEntry
  | .expr _, _, inside => .starts start :: inside.flatten
  | .block _, _, inside => .starts start :: inside.flatten
  | .apply node projection direction args, ending, inside =>
    logApplication ⟨node, projection.id, direction, args⟩ ending inside

namespace CallTree

mutual

/-- **The log of a tree.** A statement starts with an expression in the same state, so it has no
entry of its own. -/
def log : CallTree → List LogEntry
  | .mk query start ending inside => query.log start ending (logsEach inside)

/-- The log of each of some trees. -/
def logsEach : List CallTree → List (List LogEntry)
  | [] => []
  | t :: ts => t.log :: logsEach ts

end

/-- The logs of some trees, one after the other. -/
def logs (ts : List CallTree) : List LogEntry := (logsEach ts).flatten

theorem logsEach_append (ts us : List CallTree) :
    logsEach (ts ++ us) = logsEach ts ++ logsEach us := by
  induction ts with
  | nil => rfl
  | cons t rest ih => rw [List.cons_append, logsEach, logsEach, ih, List.cons_append]

theorem logs_append (ts us : List CallTree) : logs (ts ++ us) = logs ts ++ logs us := by
  rw [logs, logsEach_append, List.flatten_append, logs, logs]

end CallTree

end SchemaProjection
