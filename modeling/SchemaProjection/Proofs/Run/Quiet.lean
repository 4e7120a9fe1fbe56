import SchemaProjection.Proofs.Run.Editing
import SchemaProjection.Proofs.Run.Frames

/-!
# Quiet steps

Only an application changes what is known about applications: it writes to the memo and opens an
activation. The **standing** of a run is just that, its memo and what the activations keep
(`Run.standing`). A step is **quiet** (`Eval.Quiet`) if it leaves the standing as it is and no
activation without a frame, and does not fail for want of levels. All that evaluation does by itself, without asking for anything, is
quiet: reading names and fields, calling host functions, and all edits that apply no projection.

A quiet step does the same under a more permissive setting. What that means is a parameter, a
`Relaxation`: a strict setting and a lax one, and the failures under the strict setting after which
nothing is said about the lax one. Few steps read the setting at all: names of projections are
looked up, visible modules are searched, and a missing member is treated as the options say. The
relaxation has to be **sound** (`Relaxation.Sound`), so that none of these can tell.
-/

namespace SchemaProjection

/-! ### Relaxations -/

/-- **Two settings**, of which the second may permit more. -/
structure Relaxation where
  strict : Setting
  lax : Setting
  /-- The failures under the strict setting after which nothing is said about the lax one. -/
  excused : Failure → Prop
  /-- The counts of modules that activations see. -/
  visible : Nat → Prop

namespace Relaxation

/-- **What a relaxation has to respect.** Where the lax setting permits more, the strict one
fails. -/
structure Sound (R : Relaxation) : Prop where
  hosts : ∀ {n}, R.visible n → R.lax.hosts.take n = R.strict.hosts.take n
  visible : ∀ p ∈ R.strict.declarations.projections, R.visible p.hostCount
  isDeclared : ∀ name,
    R.lax.declarations.isDeclared name = R.strict.declarations.isDeclared name ∨
      R.strict.declarations.isDeclared name = false ∧ ∀ failure, R.excused failure
  resolve : ∀ g id name, R.strict.declarations.isDeclared name →
    R.lax.declarations.resolve? g id name = R.strict.declarations.resolve? g id name
  get : ∀ id, R.lax.declarations.get? id = R.strict.declarations.get? id ∨
    R.strict.declarations.get? id = none ∧ ∀ failure, R.excused failure
  absentMember : R.lax.options.absentMember = R.strict.options.absentMember ∨
    R.strict.options.absentMember = .error ∧ ∀ failure, R.excused failure
  maxDepth : R.lax.options.maxDepth = R.strict.options.maxDepth ∨
    R.strict.options.maxDepth ≤ R.lax.options.maxDepth ∧
      ∀ failure, failure.sort = .recursionLimit → R.excused failure
  levels : R.strict.levels ≤ R.lax.levels

/-- A setting, compared with itself. -/
def same (setting : Setting) : Relaxation := ⟨setting, setting, fun _ => False, fun _ => True⟩

theorem same_sound (setting : Setting) : (same setting).Sound where
  hosts _ := rfl
  visible _ _ := trivial
  isDeclared _ := .inl rfl
  resolve _ _ _ _ := rfl
  get _ := .inl rfl
  absentMember := .inl rfl
  maxDepth := .inl rfl
  levels := Nat.le_refl _

/-- Whether a step fails with an excuse. -/
def Excuses {α : Type} (R : Relaxation) : EStateM.Result Failure Run α → Prop
  | .ok _ _ => False
  | .error failure _ => R.excused failure

/-- All activations see modules that both settings have. -/
def Sees (R : Relaxation) (run : Run) : Prop := ∀ a ∈ run.activations, R.visible a.hostCount

end Relaxation

/-! ### Quiet steps -/

/-- Whether a failure is for want of levels. -/
def Cause.isDepth : Cause → Bool
  | .internal .depth => true
  | _ => false

theorem Cause.ne_depth {cause : Cause} (h : cause.isDepth = false) : cause ≠ .internal .depth := by
  rintro rfl
  cases h

/-- What a run knows about applications: the memo, and what every activation keeps. -/
def Run.standing (run : Run) : Memo × List (Nat × Nat) :=
  (run.memo, run.activations.map fun a => (a.depth, a.hostCount))

/-- **What a quiet step keeps**: the standing, and that all activations have frames. -/
structure Run.Stands (run after : Run) : Prop where
  standing : after.standing = run.standing
  framed : run.Framed → after.Framed

theorem Run.Stands.refl (run : Run) : run.Stands run := ⟨rfl, id⟩

theorem Run.Stands.trans {run after last : Run} (h₁ : run.Stands after) (h₂ : after.Stands last) :
    run.Stands last := ⟨h₂.standing.trans h₁.standing, h₂.framed ∘ h₁.framed⟩

theorem Relaxation.Sees.of_standing {R : Relaxation} {run after : Run} (h : R.Sees run)
    (hstanding : after.standing = run.standing) : R.Sees after := by
  intro a ha
  have hmap : after.activations.map (fun a => (a.depth, a.hostCount)) =
      run.activations.map fun a => (a.depth, a.hostCount) := congrArg Prod.snd hstanding
  have hmem := List.mem_map_of_mem (f := fun a : Activation => (a.depth, a.hostCount)) ha
  rw [hmap] at hmem
  obtain ⟨b, hb, hab⟩ := List.mem_map.mp hmem
  have hcount : b.hostCount = a.hostCount := congrArg Prod.snd hab
  exact hcount ▸ h b hb

namespace Eval

variable {R : Relaxation} {run : Run} {α β : Type}

/-- **A quiet step**: the standing of the run is the same afterwards, and the bound on levels has no
part in a failure. Under the lax setting the step does the same, unless it was excused. -/
def Quiet (R : Relaxation) (run : Run) (x : Eval α) : Prop :=
  match x.result R.strict run with
  | .ok a after => run.Stands after ∧ x.result R.lax run = .ok a after
  | .error failure after =>
    failure.cause ≠ .internal .depth ∧
      (R.excused failure ∨ x.result R.lax run = .error failure after)

namespace Quiet

/-- A step that succeeds whatever the setting is. -/
theorem of_ok {x : Eval α} {a : α} {after : Run}
    (h : ∀ setting, x.result setting run = .ok a after)
    (hstands : run.Stands after) : Quiet R run x := by
  rw [Quiet, h]
  exact ⟨hstands, h _⟩

theorem pure (a : α) : Quiet R run (pure a) := .of_ok (fun _ => rfl) (.refl _)

theorem failWith {cause : Cause} (span : Option Span) (h : cause.isDepth = false) :
    Quiet R run (failWith cause span : Eval α) := ⟨Cause.ne_depth h, .inr rfl⟩

theorem fail (span : Span) {cause : Cause} (h : cause.isDepth = false) :
    Quiet R run (fail span cause : Eval α) := .failWith _ h

/-- **Sequencing.** The second part may use what the first part came to. -/
theorem bind {x : Eval α} {f : α → Eval β} (hx : Quiet R run x)
    (hf : ∀ a after, x.result R.strict run = .ok a after → Quiet R after (f a)) :
    Quiet R run (x >>= f) := by
  rw [Quiet, result_bind, result_bind]
  cases hfirst : x.result R.strict run with
  | error failure after =>
    rw [Quiet, hfirst] at hx
    obtain ⟨hcause, hexcused | hlax⟩ := hx
    · exact ⟨hcause, .inl hexcused⟩
    · exact ⟨hcause, .inr (by rw [hlax])⟩
  | ok a middle =>
    rw [Quiet, hfirst] at hx
    obtain ⟨hstands, hlax⟩ := hx
    have hrest := hf a middle hfirst
    rw [Quiet] at hrest
    dsimp only
    rw [hlax]
    -- the standing is the same in the middle, so what the second part keeps is kept altogether
    cases hsecond : (f a).result R.strict middle with
    | error failure after =>
      rw [hsecond] at hrest
      exact hrest
    | ok b after =>
      rw [hsecond] at hrest
      exact ⟨hstands.trans hrest.1, hrest.2⟩

theorem fail_bind (span : Span) {cause : Cause} (f : α → Eval β) (h : cause.isDepth = false) :
    Quiet R run (Eval.fail span cause >>= f) :=
  (Quiet.fail span h).bind fun _ _ hfail => nomatch hfail

/-- **Reading the setting.** What follows does the same with either setting, or fails with an
excuse. -/
theorem read_bind {f : Setting → Eval β} (h : Quiet R run (f R.strict))
    (hsame : (f R.lax).result R.lax run = (f R.strict).result R.lax run ∨
      R.Excuses ((f R.strict).result R.strict run)) : Quiet R run (read >>= f) := by
  have hstrict : (read >>= f).result R.strict run = (f R.strict).result R.strict run := rfl
  have hlax : (read >>= f).result R.lax run = (f R.lax).result R.lax run := rfl
  rw [Quiet] at h ⊢
  rw [hstrict, hlax]
  rcases hsame with hsame | hexcused
  · rw [hsame]
    exact h
  · cases hresult : (f R.strict).result R.strict run with
    | ok a after =>
      rw [hresult] at hexcused
      exact hexcused.elim
    | error failure after =>
      rw [hresult] at hexcused h
      exact ⟨h.1, .inl hexcused⟩

theorem get : Quiet R run (get : Eval Run) := .of_ok (fun _ => rfl) (.refl _)

theorem graph : Quiet R run Eval.graph := .of_ok (fun _ => rfl) (.refl _)

theorem describe (id : NodeId) : Quiet R run (Eval.describe id) := .of_ok (fun _ => rfl) (.refl _)

theorem record (edit : Edit) (target : String) (args : List Value) :
    Quiet R run (Eval.record edit target args) := by
  refine .of_ok (fun _ => rfl) ?_
  -- recorded or not, only the trace changes
  dsimp only
  split
  · exact ⟨rfl, id⟩
  · exact .refl run

theorem build (action : Building α) : Quiet R run (Eval.build action) := by
  rw [Quiet, result_build, result_build]
  cases action.run run.graph with
  | ok a graph => exact ⟨⟨rfl, id⟩, rfl⟩
  | error fault graph => exact ⟨Cause.ne_depth rfl, .inr rfl⟩

/-! ### The innermost activation -/

theorem activation : Quiet R run Eval.activation := by
  rw [Quiet, result_activation, result_activation]
  cases run.activations with
  | nil => exact ⟨Cause.ne_depth rfl, .inr rfl⟩
  | cons a rest => exact ⟨.refl run, rfl⟩

theorem modifyActivation {f : Activation → Activation}
    (hf : ∀ a, (f a).depth = a.depth ∧ (f a).hostCount = a.hostCount ∧
      (a.frames ≠ [] → (f a).frames ≠ [])) :
    Quiet R run (Eval.modifyActivation f) := by
  rw [Quiet, result_modifyActivation, result_modifyActivation]
  cases hstack : run.activations with
  | nil => exact ⟨Cause.ne_depth rfl, .inr rfl⟩
  | cons a rest =>
    obtain ⟨hdepth, hcount, hframes⟩ := hf a
    refine ⟨⟨?_, fun hframed => ?_⟩, rfl⟩
    · rw [Run.standing, Run.standing, hstack, List.map_cons, List.map_cons, hdepth, hcount]
    · obtain ⟨ha, hrest⟩ := (Run.framed_iff hstack).mp hframed
      exact (Run.framed_iff rfl).mpr ⟨hframes ha, hrest⟩

theorem self : Quiet R run Eval.self := Quiet.activation.bind fun _ _ _ => .pure _

theorem setSelf (id : NodeId) : Quiet R run (Eval.setSelf id) :=
  .modifyActivation fun _ => ⟨rfl, rfl, fun h => h⟩

theorem pushFrame (frame : Frame) :
    Quiet R run (Eval.modifyActivation (Activation.pushFrame frame)) :=
  .modifyActivation fun _ => ⟨rfl, rfl, fun _ => List.cons_ne_nil _ _⟩

theorem popFrame : Quiet R run Eval.popFrame := by
  refine Quiet.activation.bind fun a _ _ => ?_
  split
  · exact .modifyActivation fun _ => ⟨rfl, rfl, fun _ => List.cons_ne_nil _ _⟩
  · exact .failWith _ rfl

end Quiet

end Eval

/-! ### Edits -/

namespace Edits

open Eval

variable {R : Relaxation} {run : Run}

theorem quiet_stringArg (call : MethodCall) (position : Nat) :
    Quiet R run (stringArg call position) := by
  unfold stringArg
  split
  · exact .pure _
  · exact .fail _ rfl
  · exact .fail _ rfl

theorem quiet_membersOf (call : MethodCall) (collection : Collection) :
    Quiet R run (membersOf call collection) := by
  refine Quiet.graph.bind fun g _ _ => ?_
  split
  · exact .pure _
  · exact .fail _ rfl

theorem quiet_existing (call : MethodCall) (members : NameTable) (name : String)
    (absence : String → String → Absence) :
    Quiet R run (existing call members name absence) := by
  unfold existing
  split
  · exact .pure _
  · exact (Quiet.describe _).bind fun _ _ _ => .fail _ rfl

theorem quiet_requireFree (call : MethodCall) (members : NameTable) (name : String) :
    Quiet R run (requireFree call members name) := by
  unfold requireFree
  split
  · exact (Quiet.describe _).bind fun _ _ _ => .fail _ rfl
  · exact .pure _

theorem quiet_projectionArg (call : MethodCall) : Quiet R run (projectionArg call) := by
  unfold projectionArg
  dsimp only
  split
  · exact .pure _
  · exact .pure _
  · exact .fail _ rfl

theorem quiet_valueArgs (call : MethodCall) (operands : List Operand) :
    Quiet R run (valueArgs call operands) := by
  induction operands generalizing run with
  | nil => exact .pure _
  | cons operand rest ih =>
    cases operand with
    | value v => exact ih.bind fun _ _ _ => .pure _
    | members ids => exact .fail _ rfl
    | projection name => exact .fail _ rfl

theorem quiet_conclude (call : MethodCall) (updated : NodeId) (edit : Edit) (target : String)
    (args : List Value) (result : Value) :
    Quiet R run (conclude call updated edit target args result) := by
  refine Quiet.self.bind fun self _ _ => ?_
  split
  · exact (Quiet.setSelf _).bind fun _ _ _ => (Quiet.record _ _ _).bind fun _ _ _ => .pure _
  · exact .pure _

theorem quiet_memberValue (call : MethodCall) (collection : Collection) :
    Quiet R run (memberValue call collection) := by
  unfold memberValue
  dsimp only
  split
  · exact .pure _
  · split
    · exact .pure _
    · exact .fail _ rfl
  · exact .fail _ rfl

theorem quiet_add (call : MethodCall) (collection : Collection) :
    Quiet R run (add call collection) := by
  refine (quiet_stringArg call 0).bind fun name _ _ => ?_
  refine (quiet_membersOf call collection).bind fun members _ _ => ?_
  refine (quiet_memberValue call collection).bind fun value _ _ => ?_
  refine (quiet_requireFree call members name).bind fun _ _ _ => ?_
  refine (Quiet.build _).bind fun member _ _ => ?_
  refine (Quiet.build _).bind fun updated _ _ => ?_
  exact quiet_conclude _ _ _ _ _ _

/-- An absent member is an error or not, as the options say. -/
theorem quiet_delete (hR : R.Sound) (call : MethodCall) (collection : Collection) :
    Quiet R run (delete call collection) := by
  refine (quiet_stringArg call 0).bind fun name _ _ => ?_
  refine (quiet_membersOf call collection).bind fun members _ _ => ?_
  split
  · exact (Quiet.build _).bind fun updated _ _ => quiet_conclude _ _ _ _ _ _
  · refine .read_bind ?_ ?_
    · split
      · exact .pure _
      · exact (Quiet.describe _).bind fun _ _ _ => .fail _ rfl
    -- where the policies differ, the strict one has just failed
    · rcases hR.absentMember with hsame | ⟨herror, hexcused⟩
      · rw [hsame]
        exact .inl rfl
      · rw [herror]
        exact .inr (hexcused _)

theorem quiet_rename (call : MethodCall) (collection : Collection) :
    Quiet R run (rename call collection) := by
  refine (quiet_stringArg call 0).bind fun old _ _ => ?_
  refine (quiet_stringArg call 1).bind fun new _ _ => ?_
  refine (quiet_membersOf call collection).bind fun members _ _ => ?_
  refine (quiet_existing call members old _).bind fun member _ _ => ?_
  split
  · exact .pure _
  · refine (quiet_requireFree call members new).bind fun _ _ _ => ?_
    refine (Quiet.build _).bind fun renamed _ _ => ?_
    exact (Quiet.build _).bind fun updated _ _ => quiet_conclude _ _ _ _ _ _

theorem quiet_live? (node : NodeId) : Quiet R run (live? node) := by
  refine Quiet.self.bind fun self _ _ => ?_
  refine Quiet.graph.bind fun g _ _ => ?_
  split
  · exact .pure _
  · exact .pure _

theorem quiet_materialize (node : NodeId) : Quiet R run (materialize node) := by
  refine Quiet.get.bind fun start _ _ => ?_
  dsimp only
  split
  · exact .pure _
  refine Quiet.self.bind fun self _ _ => ?_
  split
  · refine (Quiet.build _).bind fun copy _ _ => ?_
    exact (Quiet.setSelf _).bind fun _ _ _ => .pure _
  refine (quiet_live? node).bind fun found _ _ => ?_
  split
  · split
    · exact .pure _
    · refine (Quiet.build _).bind fun copy _ _ => ?_
      refine (Quiet.build _).bind fun updated _ _ => ?_
      exact (Quiet.setSelf _).bind fun _ _ _ => .pure _
  · exact .build _

theorem quiet_retyped? (role : TypeRole) (node type : NodeId) :
    Quiet R run (retyped? role node type) := by
  refine Quiet.graph.bind fun g _ _ => ?_
  split
  · exact .pure _
  · exact (Quiet.build _).bind fun _ _ _ => .pure _

theorem quiet_typeArg (call : MethodCall) : Quiet R run (typeArg call) := by
  unfold typeArg
  split
  · exact .fail _ rfl
  · exact .fail _ rfl
  · exact .build _
  · exact .fail _ rfl

theorem quiet_setType (call : MethodCall) (role : TypeRole) :
    Quiet R run (setType call role) := by
  have hadopt : ∀ {run : Run} (id : NodeId) (name : String) (type updated : NodeId),
      Quiet R run (Eval.setSelf id >>= fun _ =>
        Eval.record role.edit name [.type type] >>= fun _ => return Value.type updated) :=
    fun _ _ _ _ => (Quiet.setSelf _).bind fun _ _ _ => (Quiet.record _ _ _).bind fun _ _ _ =>
      .pure _
  refine (quiet_typeArg call).bind fun type _ _ => ?_
  refine Quiet.graph.bind fun g _ _ => ?_
  dsimp only
  split
  · refine Quiet.self.bind fun self _ _ => ?_
    split
    · refine (quiet_retyped? role _ type).bind fun updated? _ _ => ?_
      cases updated? with
      | none => exact .pure _
      | some updated => exact hadopt _ _ _ _
    -- the receiver is not the node itself: it may still be a member of it
    · refine (quiet_live? _).bind fun found _ _ => ?_
      cases found with
      | none =>
        refine (quiet_retyped? role _ type).bind fun updated? _ _ => ?_
        cases updated? with
        | none => exact .pure _
        | some updated => exact .pure _
      | some entry =>
        refine (quiet_retyped? role _ type).bind fun updated? _ _ => ?_
        cases updated? with
        | none => exact .pure _
        | some updated => exact (Quiet.build _).bind fun container _ _ => hadopt _ _ _ _
  · exact .fail_bind _ _ rfl

theorem quiet_get (call : MethodCall) (collection : Collection) :
    Quiet R run (get call collection) := by
  refine (quiet_stringArg call 0).bind fun name _ _ => ?_
  refine (quiet_membersOf call collection).bind fun members _ _ => ?_
  exact (quiet_existing call members name _).bind fun _ _ _ => .pure _

end Edits

/-! ### Names, fields and host functions -/

namespace Evaluation

open Eval

variable {R : Relaxation} {run : Run}

/-- A name that the strict setting does not know is an error under it. -/
theorem quiet_resolve (hR : R.Sound) (word : Word) : Quiet R run (resolve word) := by
  refine Quiet.activation.bind fun a _ _ => ?_
  -- what is in scope and what the language or the graph defines is the same under both settings
  split
  · exact .pure _
  split
  · exact .pure _
  split
  · exact .pure _
  refine Quiet.graph.bind fun g _ _ => ?_
  split
  · exact .pure _
  refine .read_bind ?_ ?_
  · split
    · exact .pure _
    · exact .fail _ rfl
  · rcases hR.isDeclared word.text with hsame | ⟨hunknown, hexcused⟩
    · rw [hsame]
      exact .inl rfl
    · rw [hunknown]
      exact .inr (hexcused _)

theorem quiet_field (word : Word) (target : Operand) : Quiet R run (field word target) := by
  unfold field
  dsimp only
  split
  · refine Quiet.graph.bind fun g _ _ => ?_
    split
    · exact .pure _
    · exact .fail _ rfl
  · split
    · exact .pure _
    · exact .fail _ rfl
  · exact .fail _ rfl
  · split
    · exact .pure _
    · exact .fail _ rfl
  · exact .fail _ rfl

/-- A host function writes metadata only, and the visible modules are those of both settings. -/
theorem quiet_callHost (hR : R.Sound) (hsees : R.Sees run) (sort : Host.ExportSort) (word : Word)
    (args : List Value) : Quiet R run (callHost sort word args) := by
  refine .read_bind ?_ (.inl ?_)
  · refine Quiet.activation.bind fun a middle _ => ?_
    dsimp only
    split
    · exact .fail _ rfl
    -- the function sees the run as it is here, and all it can change is the metadata
    refine Quiet.get.bind fun start _ hget => ?_
    cases hget
    have hwrite : ∀ metadata,
        Quiet R middle (set ({ middle with metadata } : Run) : Eval Unit) :=
      fun _ => .of_ok (fun _ => rfl) ⟨rfl, id⟩
    split
    · exact (hwrite _).bind fun _ _ _ => .fail _ rfl
    · refine (hwrite _).bind fun _ _ _ => ?_
      split
      · split
        · exact .pure _
        · exact .fail _ rfl
      · exact .pure _
  -- both settings have the modules that the activation sees
  · rw [result_bind, result_bind, result_activation]
    cases hstack : run.activations with
    | nil => rfl
    | cons a rest =>
      have hvisible : R.visible a.hostCount := hsees a (hstack ▸ List.mem_cons_self)
      dsimp only
      rw [hR.hosts hvisible]

theorem quiet_decorated (args : List Value) : Quiet R run (decorated args) := by
  unfold decorated
  split
  · exact (Edits.quiet_materialize _).bind fun _ _ _ => .pure _
  · exact .pure _

theorem quiet_giveBack (span : Span) (v : Value) : Quiet R run (giveBack span v) := by
  unfold giveBack
  split
  · exact .fail_bind _ _ rfl
  · refine (Quiet.build _).bind fun node _ _ => ?_
    refine (Quiet.setSelf node).bind fun _ _ _ => ?_
    exact Quiet.bind (.modifyActivation fun _ => ⟨rfl, rfl, id⟩) fun _ _ _ => .pure _

end Evaluation

end SchemaProjection
