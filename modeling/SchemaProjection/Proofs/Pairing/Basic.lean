import SchemaProjection.Proofs.Graph.Renumbering
import SchemaProjection.Proofs.Run.Frames

/-!
# Two runs side by side

Often two runs of one projection have to be compared: the same run before and after another one,
with and without a trace, with fewer or more declarations. A `Pairing` says how a left and a right
run may differ: by their settings, by a shift of the nodes of the right one, and in what they know
and record. What that takes of the settings is `Pairing.Sound`.

`Run.Paired` is the invariant: the state of the right run is the renumbered state of the left one,
and all nodes that the left state names are in its graph. `Eval.Follows` says of two steps that the
second does what the first does: it succeeds with the renumbered result in paired states again, or
fails with the renumbered failure. A failure of the left run can be excused; then nothing is said
about the right one.

This module holds the steps that all others are made of.
-/

namespace SchemaProjection

/-! ### Renumbered states -/

namespace Operand

def refs : Operand → List NodeId
  | .value v => v.refs
  | .members ids => ids
  | .projection _ => []

def renumber (ρ : NodeId → NodeId) : Operand → Operand
  | .value v => .value (v.renumber ρ)
  | .members ids => .members (ids.map ρ)
  | .projection name => .projection name

instance : Refers Operand where
  refs := refs
  renumber := renumber
  renumber_eq_self {ρ operand} h := by
    cases operand with
    | value v => exact congrArg Operand.value (renumber_eq_self h)
    | members ids =>
      have heach : ∀ id ∈ ids, ρ id = id := h
      rw [renumber, List.map_congr_left heach, List.map_id']
    | projection name => rfl

end Operand

instance : Refers Flow := .plain Flow

instance : Refers Activation where
  refs a := a.self :: refs a.frames
  renumber ρ a := { a with self := ρ a.self, frames := renumber ρ a.frames }
  renumber_eq_self {ρ a} h := by
    have hself : ρ a.self = a.self := h a.self List.mem_cons_self
    have hframes : renumber ρ a.frames = a.frames :=
      renumber_eq_self fun id hid => h id (List.mem_cons_of_mem _ hid)
    rw [hself, hframes]

instance : Refers MemoKey where
  refs key := key.node :: refs key.args
  renumber ρ key := { key with node := ρ key.node, args := renumber ρ key.args }
  renumber_eq_self {ρ key} h := by
    have hnode : ρ key.node = key.node := h key.node List.mem_cons_self
    have hargs : renumber ρ key.args = key.args :=
      renumber_eq_self fun id hid => h id (List.mem_cons_of_mem _ hid)
    rw [hnode, hargs]

namespace MemoEntry

def refs : MemoEntry → List NodeId
  | .active => []
  | .done result => [result]

def renumber (ρ : NodeId → NodeId) : MemoEntry → MemoEntry
  | .active => .active
  | .done result => .done (ρ result)

instance : Refers MemoEntry where
  refs := refs
  renumber := renumber
  renumber_eq_self {ρ entry} h := by
    cases entry with
    | active => rfl
    | done result => exact congrArg MemoEntry.done (h result List.mem_cons_self)

end MemoEntry

instance : Refers Instruction where
  refs i := refs i.args
  renumber ρ i := { i with args := renumber ρ i.args }
  renumber_eq_self {ρ i} h := by
    have hargs : renumber ρ i.args = i.args := renumber_eq_self h
    rw [hargs]

/-! ### Renumbered failures -/

instance : Refers Host.Fault where
  refs
    | .expected _ _ got => refs got
    | .causes _ => []
  renumber ρ
    | .expected function what got => .expected function what (renumber ρ got)
    | .causes texts => .causes texts
  renumber_eq_self {ρ fault} h := by
    cases fault with
    | expected function what got =>
      exact congrArg (Host.Fault.expected function what) (renumber_eq_self h)
    | causes texts => rfl

namespace Cause

/-- The nodes that a cause names by their ids; mostly nodes are described. -/
def refs : Cause → List NodeId
  | .typeMismatch (.foreignNode id) => [id]
  | .typeMismatch (.projectedValue _ v) => v.refs
  | .host _ (.failed fault) => Refers.refs fault
  | .host _ (.foreignNode id) => [id]
  | _ => []

def renumber (ρ : NodeId → NodeId) : Cause → Cause
  | .typeMismatch (.foreignNode id) => .typeMismatch (.foreignNode (ρ id))
  | .typeMismatch (.projectedValue name v) => .typeMismatch (.projectedValue name (v.renumber ρ))
  | .host name (.failed fault) => .host name (.failed (Refers.renumber ρ fault))
  | .host name (.foreignNode id) => .host name (.foreignNode (ρ id))
  | cause => cause

instance : Refers Cause where
  refs := refs
  renumber := renumber
  renumber_eq_self {ρ cause} h := by
    unfold refs at h
    unfold renumber
    split
    · rw [h _ List.mem_cons_self]
    · exact congrArg (fun v => Cause.typeMismatch (.projectedValue _ v)) (renumber_eq_self h)
    · exact congrArg (fun fault => Cause.host _ (.failed fault)) (renumber_eq_self h)
    · rw [h _ List.mem_cons_self]
    · rfl

end Cause

instance : Refers Failure where
  refs failure := refs failure.cause
  renumber ρ failure := { failure with cause := renumber ρ failure.cause }
  renumber_eq_self {ρ failure} h := by
    have hcause : renumber ρ failure.cause = failure.cause := renumber_eq_self h
    rw [hcause]

/-! ### Telling apart -/

section

variable {ρ : NodeId → NodeId} (hρ : Function.Injective ρ)
include hρ

theorem Value.renumber_injective : Function.Injective (Refers.renumber (α := Value) ρ) := by
  intro a b h
  cases a <;> cases b <;> simp_all [Refers.renumber, Value.renumber, hρ.eq_iff]

theorem MemoKey.renumber_injective : Function.Injective (Refers.renumber (α := MemoKey) ρ) := by
  intro a b h
  obtain ⟨hnode, hprojection, hdirection, hargs⟩ := MemoKey.mk.inj h
  have hargs : a.args = b.args :=
    (List.map_inj_right fun a b hab => Value.renumber_injective hρ hab).mp hargs
  cases a
  cases b
  exact MemoKey.mk.injEq .. ▸ ⟨hρ hnode, hprojection, hdirection, hargs⟩

end

/-! ### Pairings -/

/-- **How two runs may differ.** The nodes of the right run are shifted. -/
structure Pairing extends Shift where
  left : Setting
  right : Setting
  /-- The failures of the left run after which nothing is said about the right one. -/
  excused : Failure → Prop
  /-- The counts of modules that activations see. -/
  visible : Nat → Prop
  /-- How what is known about nodes corresponds, in view of the left graph. -/
  metadata : Graph → Metadata → Metadata → Prop
  /-- How what is recorded corresponds. -/
  trace : Graph → Option (List Instruction) → Option (List Instruction) → Prop

namespace Pairing

/-- What a host function does on the left and on the right. -/
def Answers (P : Pairing) (f : Host.Function) (args : List Value) (g h : Graph)
    (m m' : Metadata) : Prop :=
  match (f args).result g m, (f (renumber P.move args)).result h m' with
  | .ok v after, .ok v' after' => v' = renumber P.move v ∧ P.metadata g after after'
  | .error fault _, .error fault' _ => fault' = renumber P.move fault
  | _, _ => False

/-- **What a pairing has to respect** for the two runs to stay side by side. -/
structure Sound (P : Pairing) : Prop where
  metadata_mono : ∀ {g h m m'}, P.metadata g m m' → g ≤ h → P.metadata h m m'
  trace_mono : ∀ {g h t t'}, P.trace g t t' → g ≤ h → P.trace h t t'
  record : ∀ {g t t'} {i : Instruction}, P.trace g t t' → g.Knows i →
    P.trace g (t.map (· ++ [i])) (t'.map (· ++ [renumber P.move i]))
  hosts : ∀ {n}, P.visible n → P.right.hosts.take n = P.left.hosts.take n
  answers : ∀ {n sort name f g h m m' args}, P.visible n →
    Host.find? (P.left.hosts.take n) sort name = some f → g.Shifted P.toShift h →
    P.metadata g m m' → g.Knows args → P.Answers f args g h m m'
  isDeclared : ∀ name, P.right.declarations.isDeclared name = P.left.declarations.isDeclared name ∨
    P.left.declarations.isDeclared name = false ∧ ∀ failure, P.excused failure
  resolve : ∀ {g h id name}, g.Shifted P.toShift h → g.contains id →
    P.left.declarations.isDeclared name →
    P.right.declarations.resolve? h (P.move id) name = P.left.declarations.resolve? g id name
  get : ∀ id, P.right.declarations.get? id = P.left.declarations.get? id ∨
    P.left.declarations.get? id = none ∧ ∀ failure, P.excused failure
  visible : ∀ p ∈ P.left.declarations.projections, P.visible p.hostCount
  absentMember : P.right.options.absentMember = P.left.options.absentMember ∨
    P.left.options.absentMember = .error ∧ ∀ failure, P.excused failure
  maxDepth : P.right.options.maxDepth = P.left.options.maxDepth ∨
    P.left.options.maxDepth ≤ P.right.options.maxDepth ∧
      ∀ name node span, P.excused ⟨.recursionLimit P.left.options.maxDepth name node, span⟩

end Pairing

/-- **States side by side.** -/
structure Run.Paired (P : Pairing) (run other : Run) : Prop where
  graph : run.graph.Shifted P.toShift other.graph
  metadata : P.metadata run.graph run.metadata other.metadata
  activations : other.activations = renumber P.move run.activations
  knows_activations : run.graph.Knows run.activations
  visible : ∀ a ∈ run.activations, P.visible a.hostCount
  framed : run.Framed
  memo : ∀ key, other.memo.find? (renumber P.move key) =
    (run.memo.find? key).map (renumber P.move)
  knows_memo : ∀ key entry, run.memo.find? key = some entry → run.graph.Knows entry
  trace : P.trace run.graph run.trace other.trace
  watermark : run.watermark = P.mark ∧ other.watermark = P.mark + P.gap

/-! ### Steps side by side -/

namespace Eval

variable {P : Pairing} {run other : Run} {α β : Type}

/-- **The second step does what the first one does**, up to the renumbering, unless the first fails
and is excused. -/
def Follows [Refers α] (P : Pairing) (run other : Run) (x y : Eval α) : Prop :=
  match x.result P.left run, y.result P.right other with
  | .ok a after, .ok b after' =>
    b = renumber P.move a ∧ after.graph.Knows a ∧ run.graph ≤ after.graph ∧ after.Paired P after'
  | .ok _ _, .error _ _ => False
  | .error failure _, .ok _ _ => P.excused failure
  | .error failure _, .error failure' _ =>
    P.excused failure ∨ failure' = renumber P.move failure

variable [Refers α] [Refers β]

theorem Follows.pure (hp : run.Paired P other) {a : α} (ha : run.graph.Knows a) :
    Follows P run other (pure a) (pure (renumber P.move a)) :=
  ⟨rfl, ha, le_rfl, hp⟩

/-- A result that names no node. -/
theorem Follows.plain (hp : run.Paired P other) {a : α} (ha : refs a = []) :
    Follows P run other (Pure.pure a) (Pure.pure a) := by
  have hsame : renumber P.move a = a := renumber_eq_self fun id hid => by
    rw [ha] at hid
    cases hid
  have hpure := Follows.pure hp (Graph.knows_of_refs_eq_nil ha)
  rw [hsame] at hpure
  exact hpure

theorem Follows.failWith {cause cause' : Cause} (h : cause' = renumber P.move cause)
    (span : Option Span) :
    Follows P run other (failWith cause span : Eval α) (Eval.failWith cause' span) :=
  .inr (by rw [h]; rfl)

/-- A cause that names no node by its id. -/
theorem Follows.fail {cause : Cause} (h : cause.refs = []) (span : Span) :
    Follows P run other (fail span cause : Eval α) (Eval.fail span cause) := by
  refine .failWith (Eq.symm (renumber_eq_self fun id hid => ?_)) _
  have hid : id ∈ cause.refs := hid
  rw [h] at hid
  cases hid

/-- After an excused failure there is nothing to compare. -/
theorem Follows.of_excused {x y : Eval α} (failure : Failure) (after : Run)
    (hx : x.result P.left run = .error failure after) (h : P.excused failure) :
    Follows P run other x y := by
  unfold Follows
  rw [hx]
  cases y.result P.right other with
  | ok b after' => exact h
  | error failure' after' => exact .inl h

/-- The states after a failure are not compared. -/
theorem Follows.of_outcome {x x' y y' : Eval α}
    (hx : outcome (x'.result P.left run) = outcome (x.result P.left run))
    (hy : outcome (y'.result P.right other) = outcome (y.result P.right other))
    (h : Follows P run other x y) : Follows P run other x' y' := by
  unfold Follows at h ⊢
  generalize x.result P.left run = r at hx h
  generalize x'.result P.left run = r' at hx
  generalize y.result P.right other = q at hy h
  generalize y'.result P.right other = q' at hy
  cases r <;> cases r' <;> cases hx <;> cases q <;> cases q' <;> cases hy <;> exact h

/-- **Sequencing.** -/
theorem Follows.bind {x y : Eval α} {f f' : α → Eval β} (hx : Follows P run other x y)
    (hf : ∀ a after after', run.graph ≤ after.graph → after.Paired P after' →
      after.graph.Knows a → Follows P after after' (f a) (f' (renumber P.move a))) :
    Follows P run other (x >>= f) (y >>= f') := by
  unfold Follows at hx ⊢
  rw [result_bind, result_bind]
  cases hleft : x.result P.left run with
  -- after a failure of the left run it is enough that this one was excused or matched
  | error failure after =>
    cases hright : y.result P.right other with
    | error failure' after' =>
      rw [hleft, hright] at hx
      exact hx
    | ok b after' =>
      rw [hleft, hright] at hx
      have hexcused : P.excused failure := hx
      dsimp only
      cases (f' b).result P.right after' with
      | ok c last => exact hexcused
      | error failure' last => exact .inl hexcused
  | ok a after =>
    cases hright : y.result P.right other with
    | error failure' after' =>
      rw [hleft, hright] at hx
      exact hx.elim
    | ok b after' =>
      rw [hleft, hright] at hx
      obtain ⟨rfl, ha, hle, hp⟩ := hx
      -- both succeeded: the rest starts in paired states
      have hrest := hf a after after' hle hp ha
      unfold Follows at hrest
      dsimp only
      split at hrest
      · next hl hr =>
        rw [hl, hr]
        obtain ⟨hb, hknown, hlast, hpaired⟩ := hrest
        exact ⟨hb, hknown, le_trans hle hlast, hpaired⟩
      · exact hrest.elim
      · next hl hr =>
        rw [hl, hr]
        exact hrest
      · next hl hr =>
        rw [hl, hr]
        exact hrest

/-! ### Reading -/

section

omit [Refers α]

/-- Each step reads its own state. -/
theorem Follows.get_bind {f f' : Run → Eval β} (h : Follows P run other (f run) (f' other)) :
    Follows P run other (get >>= f) (get >>= f') := h

theorem Follows.graph_bind {f f' : Graph → Eval β}
    (h : Follows P run other (f run.graph) (f' other.graph)) :
    Follows P run other (Eval.graph >>= f) (Eval.graph >>= f') := h

theorem Follows.read_bind {f f' : Setting → Eval β}
    (h : Follows P run other (f P.left) (f' P.right)) :
    Follows P run other (read >>= f) (read >>= f') := h

/-- Nothing follows a failure. -/
theorem Follows.fail_bind {cause : Cause} (h : cause.refs = []) (span : Span)
    (f f' : α → Eval β) :
    Follows P run other (Eval.fail span cause >>= f) (Eval.fail span cause >>= f') :=
  Follows.fail (α := β) h span

theorem Follows.describe_bind (hp : run.Paired P other) {id : NodeId}
    (hid : run.graph.contains id) {f f' : String → Eval β}
    (h : Follows P run other (f (run.graph.describe id)) (f' (run.graph.describe id))) :
    Follows P run other (describe id >>= f) (describe (P.move id) >>= f') := by
  have hresult : (describe (P.move id)).result P.right other =
      .ok (run.graph.describe id) other := by
    rw [← hp.graph.describe_move hid]
    rfl
  unfold Follows at h ⊢
  rw [result_bind_of_ok hresult]
  exact h

theorem Follows.activation_bind (hp : run.Paired P other) {f f' : Activation → Eval β}
    (h : ∀ a ∈ run.activations, run.activations.head? = some a →
      Follows P run other (f a) (f' (renumber P.move a))) :
    Follows P run other (activation >>= f) (activation >>= f') := by
  have hstack := hp.activations
  cases hrun : run.activations with
  | nil =>
    -- no activation on either side: both runs fail alike
    rw [hrun] at hstack
    have hother : other.activations = [] := hstack
    unfold Follows
    rw [result_bind, result_bind, result_activation, result_activation, hrun, hother]
    exact .inr rfl
  | cons a rest =>
    rw [hrun] at hstack
    have hother : other.activations = renumber P.move a :: renumber P.move rest := hstack
    have hleft : activation.result P.left run = .ok a run := by rw [result_activation, hrun]
    have hright : activation.result P.right other = .ok (renumber P.move a) other := by
      rw [result_activation, hother]
    have hrest := h a (hrun ▸ List.mem_cons_self) (by rw [hrun]; rfl)
    unfold Follows at hrest ⊢
    rw [result_bind_of_ok hleft, result_bind_of_ok hright]
    exact hrest

theorem Follows.self_bind (hp : run.Paired P other) {f f' : NodeId → Eval β}
    (h : ∀ id, run.graph.contains id → Follows P run other (f id) (f' (P.move id))) :
    Follows P run other (self >>= f) (self >>= f') := by
  -- `self` reads the innermost activation and nothing else
  have hself : ∀ f : NodeId → Eval β, self >>= f = activation >>= fun a => f a.self := fun f => by
    rw [self, bind_assoc]
    simp only [pure_bind]
  rw [hself, hself]
  refine Follows.activation_bind hp fun a ha _ => h a.self ?_
  exact Graph.knows_list_iff.mp hp.knows_activations a ha a.self List.mem_cons_self

end

/-! ### Changing the innermost activation -/

end Eval

namespace Run.Paired

variable {P : Pairing} {run other : Run}

/-- Other activations on both sides. -/
theorem stack (hp : run.Paired P other) (activations : List Activation)
    (hknown : run.graph.Knows activations) (hvisible : ∀ a ∈ activations, P.visible a.hostCount)
    (hframed : ∀ a ∈ activations, a.frames ≠ []) :
    ({ run with activations } : Run).Paired P
      { other with activations := renumber P.move activations } :=
  ⟨hp.graph, hp.metadata, rfl, hknown, hvisible, hframed, hp.memo, hp.knows_memo, hp.trace,
    hp.watermark⟩

/-- The frames of the right run are those of the left one. -/
theorem framed_right (hp : run.Paired P other) : other.Framed := by
  intro b hb
  rw [hp.activations] at hb
  obtain ⟨a, ha, rfl⟩ := List.mem_map.mp hb
  exact fun hnil => hp.framed a ha (List.map_eq_nil_iff.mp hnil)

/-- Longer graphs on both sides. -/
theorem extend (hp : run.Paired P other) (hP : P.Sound) {g h : Graph} (hle : run.graph ≤ g)
    (hs : g.Shifted P.toShift h) :
    ({ run with graph := g } : Run).Paired P { other with graph := h } :=
  ⟨hs, hP.metadata_mono hp.metadata hle, hp.activations, hp.knows_activations.mono hle, hp.visible,
    hp.framed, hp.memo, fun key entry h => (hp.knows_memo key entry h).mono hle,
    hP.trace_mono hp.trace hle, hp.watermark⟩

end Run.Paired

namespace Eval

variable {P : Pairing} {run other : Run} {α β : Type} [Refers α] [Refers β]

theorem knows_unit (g : Graph) : g.Knows () := fun _ h => nomatch h

theorem follows_modifyActivation (hp : run.Paired P other) {f f' : Activation → Activation}
    (hf : ∀ a, run.graph.Knows a → f' (renumber P.move a) = renumber P.move (f a) ∧
      run.graph.Knows (f a) ∧ (f a).hostCount = a.hostCount ∧
        (a.frames ≠ [] → (f a).frames ≠ [])) :
    Follows P run other (modifyActivation f) (modifyActivation f') := by
  have hstack := hp.activations
  unfold Follows
  rw [result_modifyActivation, result_modifyActivation]
  cases hrun : run.activations with
  | nil =>
    rw [hrun] at hstack
    have hother : other.activations = [] := hstack
    rw [hother]
    exact .inr rfl
  | cons a rest =>
    rw [hrun] at hstack
    have hother : other.activations = renumber P.move a :: renumber P.move rest := hstack
    have hknown := hp.knows_activations
    have hvisible := hp.visible
    rw [hrun] at hknown hvisible
    -- only the innermost activation changes, so the others are still known and visible
    obtain ⟨hknowna, hknownrest⟩ := Graph.knows_cons_iff.mp hknown
    obtain ⟨hvisiblea, hvisiblerest⟩ := List.forall_mem_cons.mp hvisible
    obtain ⟨hframeda, hframedrest⟩ := (Run.framed_iff hrun).mp hp.framed
    obtain ⟨heq, ha, hcount, hframes⟩ := hf a hknowna
    rw [hother]
    refine ⟨rfl, knows_unit _, le_rfl, ?_⟩
    rw [heq]
    refine hp.stack (f a :: rest) (Graph.knows_cons_iff.mpr ⟨ha, hknownrest⟩) ?_ ?_
    · exact List.forall_mem_cons.mpr ⟨hcount ▸ hvisiblea, hvisiblerest⟩
    · exact List.forall_mem_cons.mpr ⟨hframes hframeda, hframedrest⟩

theorem follows_setSelf (hp : run.Paired P other) {id : NodeId} (hid : run.graph.contains id) :
    Follows P run other (setSelf id) (setSelf (P.move id)) := by
  refine follows_modifyActivation hp fun a ha => ⟨rfl, fun r hr => ?_, rfl, fun h => h⟩
  rcases List.mem_cons.mp hr with rfl | hr
  · exact hid
  · exact ha r (List.mem_cons_of_mem _ hr)

/-! ### Changing the rest of the state -/

/-- Building does the same on both graphs. -/
theorem follows_build (hP : P.Sound) (hp : run.Paired P other) {x y : Building α}
    (h : Building.Follows P.toShift run.graph other.graph x y) :
    Follows P run other (build x) (build y) := by
  unfold Building.Follows at h
  unfold Follows
  rw [result_build, result_build]
  split at h
  · next a g b g' hx hy =>
    obtain ⟨hb, hknown, hle, hs⟩ := h
    rw [hx, hy]
    exact ⟨hb, hknown, hle, hp.extend hP hle hs⟩
  · next hx hy =>
    rw [hx, hy, h]
    exact .inr rfl
  · exact h.elim

theorem depth_eq (hp : run.Paired P other) : other.depth = run.depth := by
  rw [Run.depth, Run.depth, hp.activations]
  cases run.activations <;> rfl

theorem follows_record (hP : P.Sound) (hp : run.Paired P other) (edit : Edit) (target : String)
    {args : List Value} (hargs : run.graph.Knows args) :
    Follows P run other (record edit target args) (record edit target (renumber P.move args)) := by
  have hresult : ∀ (setting : Setting) (run : Run) (args : List Value),
      (record edit target args).result setting run =
        .ok () (if run.depth = 1 then
          { run with trace := run.trace.map (· ++ [⟨edit, target, args⟩]) } else run) :=
    fun _ _ _ => rfl
  unfold Follows
  rw [hresult, hresult, depth_eq hp]
  -- both runs record, or neither does
  by_cases hdepth : run.depth = 1
  · rw [if_pos hdepth, if_pos hdepth]
    refine ⟨rfl, knows_unit _, le_rfl, ?_⟩
    exact { hp with trace := hP.record hp.trace (i := ⟨edit, target, args⟩) hargs }
  · rw [if_neg hdepth, if_neg hdepth]
    exact ⟨rfl, knows_unit _, le_rfl, hp⟩

omit [Refers α] in
theorem Follows.remembered_bind (hp : run.Paired P other) (key : MemoKey)
    {f f' : Option MemoEntry → Eval β}
    (h : ∀ entry, run.graph.Knows entry →
      Follows P run other (f entry) (f' (renumber P.move entry))) :
    Follows P run other (remembered? key >>= f) (remembered? (renumber P.move key) >>= f') := by
  have hresult : (remembered? (renumber P.move key)).result P.right other =
      .ok (renumber P.move (run.memo.find? key)) other := by
    show EStateM.Result.ok (other.memo.find? (renumber P.move key)) other = _
    rw [hp.memo]
    rfl
  have hknown : run.graph.Knows (run.memo.find? key) := by
    intro id hid
    obtain ⟨entry, hentry, hid⟩ := List.mem_flatMap.mp hid
    rw [Option.mem_toList] at hentry
    exact hp.knows_memo key entry hentry id hid
  have hrest := h _ hknown
  unfold Follows at hrest ⊢
  rw [result_bind_of_ok hresult]
  exact hrest

theorem follows_remember (hp : run.Paired P other) (key : MemoKey) (entry : MemoEntry)
    (hentry : run.graph.Knows entry) :
    Follows P run other (remember key entry)
      (remember (renumber P.move key) (renumber P.move entry)) := by
  refine ⟨rfl, knows_unit _, le_rfl, { hp with memo := fun k => ?_, knows_memo := fun k e h => ?_ }⟩
  -- different keys stay different, so no other entry is overwritten on the right
  · have hkey : renumber P.move key = renumber P.move k ↔ key = k :=
      (MemoKey.renumber_injective P.move_injective).eq_iff
    dsimp only
    rw [Memo.find?_insert, Memo.find?_insert]
    by_cases h : key = k
    · rw [if_pos h, if_pos (hkey.mpr h)]
      rfl
    · rw [if_neg h, if_neg fun heq => h (hkey.mp heq)]
      exact hp.memo k
  · dsimp only at h
    rw [Memo.find?_insert] at h
    split at h
    · cases h
      exact hentry
    · exact hp.knows_memo k e h

/-! ### Brackets -/

theorem follows_popFrame (hp : run.Paired P other) : Follows P run other popFrame popFrame := by
  refine Follows.activation_bind hp fun a ha _ => ?_
  have hframes : run.graph.Knows a.frames := fun id hid =>
    Graph.knows_list_iff.mp hp.knows_activations a ha id (List.mem_cons_of_mem _ hid)
  have hmoved : (renumber P.move a).frames = renumber P.move a.frames := rfl
  rw [hmoved]
  -- the frame of the parameters stays; without another one both runs fail
  cases hstack : a.frames with
  | nil => exact .inr rfl
  | cons frame inner =>
    cases inner with
    | nil => exact .inr rfl
    | cons outer rest =>
      rw [hstack] at hframes
      refine follows_modifyActivation hp fun b hb =>
        ⟨rfl, fun id hid => ?_, rfl, fun _ => List.cons_ne_nil _ _⟩
      rcases List.mem_cons.mp hid with rfl | hid
      · exact hb _ List.mem_cons_self
      · exact hframes id (List.mem_append_right _ hid)

theorem follows_inFrame (hp : run.Paired P other) {frame : Frame} (hframe : run.graph.Knows frame)
    {x y : Eval α}
    (hx : ∀ {after after' : Run}, run.graph ≤ after.graph → after.Paired P after' →
      Follows P after after' x y) :
    Follows P run other (inFrame frame x) (inFrame (renumber P.move frame) y) := by
  have hpush : Follows P run other (modifyActivation (Activation.pushFrame frame))
      (modifyActivation (Activation.pushFrame (renumber P.move frame))) := by
    refine follows_modifyActivation hp fun a ha =>
      ⟨rfl, fun id hid => ?_, rfl, fun _ => List.cons_ne_nil _ _⟩
    rcases List.mem_cons.mp hid with rfl | hid
    · exact ha _ List.mem_cons_self
    rcases List.mem_append.mp hid with hid | hid
    · exact hframe id hid
    · exact ha id (List.mem_cons_of_mem _ hid)
  refine hpush.bind fun _ opened opened' hle hp _ => ?_
  refine (hx hle hp).bind fun a inside inside' _ hp ha => ?_
  refine (follows_popFrame hp).bind fun _ closed closed' hle hp _ => ?_
  exact .pure hp (ha.mono hle)

/-- A round is closed after a failure as well, which is no failure of its own on either side. -/
theorem follows_inRound (hp : run.Paired P other) {frame : Frame} (hframe : run.graph.Knows frame)
    {x y : Eval α} (hleft : ∀ {run : Run}, Steps P.left run true x)
    (hright : ∀ {run : Run}, Steps P.right run true y)
    (hx : ∀ {after after' : Run}, run.graph ≤ after.graph → after.Paired P after' →
      Follows P after after' x y) :
    Follows P run other (inRound frame x) (inRound (renumber P.move frame) y) :=
  .of_outcome (outcome_inRound hp.framed.head hleft) (outcome_inRound hp.framed_right.head hright)
    (follows_inFrame hp hframe hx)

theorem follows_popActivation (hp : run.Paired P other) :
    Follows P run other popActivation popActivation := by
  have hstack := hp.activations
  unfold Follows
  cases hrun : run.activations with
  | nil =>
    rw [hrun] at hstack
    have hother : other.activations = [] := hstack
    rw [result_popActivation_nil hrun, result_popActivation_nil hother]
    exact .inr rfl
  | cons a rest =>
    rw [hrun] at hstack
    have hother : other.activations = renumber P.move a :: renumber P.move rest := hstack
    have hknown := hp.knows_activations
    have hvisible := hp.visible
    rw [hrun] at hknown hvisible
    obtain ⟨ha, hrest⟩ := Graph.knows_cons_iff.mp hknown
    rw [result_popActivation hrun, result_popActivation hother]
    exact ⟨rfl, ha, le_rfl, hp.stack rest hrest (List.forall_mem_cons.mp hvisible).2
      ((Run.framed_iff hrun).mp hp.framed).2⟩

theorem follows_inActivation (hp : run.Paired P other) {a : Activation} (ha : run.graph.Knows a)
    (hvisible : P.visible a.hostCount) (hframed : a.frames ≠ []) {x y : Eval α}
    (hleft : ∀ {run : Run}, Steps P.left run true x)
    (hright : ∀ {run : Run}, Steps P.right run true y)
    (hx : ∀ {after after' : Run}, run.graph ≤ after.graph → after.Paired P after' →
      Follows P after after' x y) :
    Follows P run other (inActivation a x) (inActivation (renumber P.move a) y) := by
  have hpush : Follows P run other (pushActivation a) (pushActivation (renumber P.move a)) := by
    refine ⟨rfl, knows_unit _, le_rfl, ?_⟩
    dsimp only
    rw [hp.activations]
    refine hp.stack (a :: run.activations) (Graph.knows_cons_iff.mpr ⟨ha, hp.knows_activations⟩)
      ?_ ?_
    · exact List.forall_mem_cons.mpr ⟨hvisible, hp.visible⟩
    · exact List.forall_mem_cons.mpr ⟨hframed, hp.framed⟩
  refine .of_outcome (outcome_inActivation hleft) (outcome_inActivation hright) ?_
  refine hpush.bind fun _ opened opened' hle hp _ => ?_
  refine (hx hle hp).bind fun _ inside inside' _ hp _ => ?_
  refine (follows_popActivation hp).bind fun b closed closed' _ hp hb => ?_
  exact .pure hp (Graph.knows_id_iff.mpr (hb b.self List.mem_cons_self))

end Eval

end SchemaProjection
