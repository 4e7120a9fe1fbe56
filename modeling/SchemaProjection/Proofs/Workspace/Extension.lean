import SchemaProjection.Proofs.Workspace.Endings
import SchemaProjection.Proofs.Workspace.Programs

/-!
# Extending a program

A client may import modules and declare projections at any time. Both only append to what the
workspace has (`Workspace.extended`, `Workspace.exists_extended`). If the names of what is declared
are new to the program, no run that succeeds is changed by it (`Workspace.runs_conserved`).

A run looks names up in many places. Activations see the modules that had been imported when their
projection was declared, and no others. Of several applicable projections of one name the first
counts, so appended ones matter only for a name that none had before. Looking such a name up fails
in the program as it was: an excuse (`Relaxation.compares_extended`), but none is needed if nothing
is declared.
-/

namespace SchemaProjection

/-- A step that imports a module. -/
def Event.Imports : Event → Prop
  | .importModule _ => True
  | _ => False

/-- A step that extends the program: it imports a module, or declares projections. -/
def Event.Extends : Event → Prop
  | .importModule _ | .declare _ _ => True
  | _ => False

/-! ### More declarations -/

namespace Declarations

variable {d : Declarations} {added : List Projection}

/-- More declarations are not lower. -/
theorem height_le_append (projections added : List Projection) :
    (mk projections).height ≤ (mk (projections ++ added)).height := by
  unfold height
  induction projections with
  | nil => exact Nat.zero_le _
  | cons p rest ih =>
    exact Nat.max_le.mpr ⟨Nat.le_max_left _ _, Nat.le_trans ih (Nat.le_max_right _ _)⟩

theorem isDeclared_append (name : String) : (mk (d.projections ++ added)).isDeclared name =
    (d.isDeclared name || added.any (·.name = name)) := List.any_append

/-- **A declared name stands for the same projections** if only others are declared after it. -/
theorem resolve?_append (hfresh : ∀ p ∈ added, d.isDeclared p.name = false) (g : Graph)
    (id : NodeId) {name : String} (hname : d.isDeclared name = true) :
    (mk (d.projections ++ added)).resolve? g id name = d.resolve? g id name := by
  have hnone : added.find? (fun p => p.appliesTo g id && p.name = name) = none := by
    refine List.find?_eq_none.mpr fun p hp hfound => ?_
    have hsame : p.name = name := of_decide_eq_true (Bool.and_eq_true_iff.mp hfound).2
    have hnew := hfresh p hp
    rw [hsame, hname] at hnew
    cases hnew
  show (d.projections ++ added).find? _ = d.projections.find? _
  rw [List.find?_append, hnone, Option.or_none]

/-- Declaring trees appends their projections. -/
theorem exists_declareAll (d : Declarations) (g : Graph) (n : Nat)
    (trees : List ProjectionTree) :
    ∃ added, (d.declareAll g n trees).2 = ⟨d.projections ++ added⟩ := by
  induction trees generalizing d with
  | nil => exact ⟨[], by rw [List.append_nil]; rfl⟩
  | cons tree rest ih =>
    unfold Declarations.declareAll Declarations.declare
    cases Declarations.target? g tree.selector.text with
    | none => exact ⟨[], by rw [List.append_nil]⟩
    | some target =>
      obtain ⟨added, hrest⟩ := ih ⟨d.projections ++ [_]⟩
      exact ⟨_ :: added, by rw [hrest, List.append_assoc]; rfl⟩

end Declarations

/-! ### What is appended -/

namespace Workspace

/-- A workspace with more modules and projections. -/
def extended (w : Workspace) (modules : List Host.Module) (added : List Projection) : Workspace :=
  { w with hosts := w.hosts ++ modules, declarations := ⟨w.declarations.projections ++ added⟩ }

variable {w : Workspace} {modules : List Host.Module} {added : List Projection}

theorem extended_nil : w.extended [] [] = w := by
  rw [extended, List.append_nil, List.append_nil]

theorem extended_extended (modules' : List Host.Module) (added' : List Projection) :
    (w.extended modules added).extended modules' added' =
      w.extended (modules ++ modules') (added ++ added') := by
  simp only [extended, List.append_assoc]

/-- One step appends to what there is; an import does not append projections. -/
theorem exists_extended_after {e : Event} (h : e.Extends) : ∃ modules added,
    w.after e = w.extended modules added ∧ (e.Imports → added = []) := by
  cases e with
  | importModule m =>
    refine ⟨[m], [], ?_, fun _ => rfl⟩
    rw [extended, List.append_nil]
    rfl
  | declare file text =>
    rcases w.declare_eq file text with hsame | ⟨trees, hdeclared⟩
    · exact ⟨[], [], hsame.trans extended_nil.symm, fun _ => rfl⟩
    · obtain ⟨added, hadded⟩ :=
        w.declarations.exists_declareAll w.graph w.hosts.length trees
      refine ⟨[], added, hdeclared.trans ?_, False.elim⟩
      rw [extended, List.append_nil, hadded]
  | _ => exact False.elim h

/-- **Extending a program appends to what there is**; imports do not append projections. -/
theorem exists_extended {later : List Event} (h : ∀ e ∈ later, e.Extends) : ∃ modules added,
    later.foldl after w = w.extended modules added ∧ ((∀ e ∈ later, e.Imports) → added = []) := by
  induction later generalizing w with
  | nil => exact ⟨[], [], extended_nil.symm, fun _ => rfl⟩
  | cons e rest ih =>
    obtain ⟨modules, added, hfirst, himport⟩ :=
      exists_extended_after (w := w) (h e List.mem_cons_self)
    obtain ⟨modules', added', hrest, himports⟩ :=
      ih (w := w.after e) fun e' he' => h e' (List.mem_cons_of_mem e he')
    refine ⟨modules ++ modules', added ++ added', ?_, fun hall => ?_⟩
    · rw [List.foldl_cons, hrest, hfirst, extended_extended]
    · rw [himport (hall e List.mem_cons_self),
        himports fun e' he' => hall e' (List.mem_cons_of_mem e he')]
      rfl

end Workspace

/-! ### What a run sees of it -/

/-- A workspace, and the same one extended. -/
def Relaxation.extension (w : Workspace) (modules : List Host.Module) (added : List Projection)
    (excused : Failure → Prop) : Relaxation :=
  ⟨w.setting, (w.extended modules added).setting, excused, (· ≤ w.hosts.length)⟩

/-- **A workspace is extended soundly** by projections of new names. There has to be an excuse,
unless there are no such projections. -/
theorem Relaxation.compares_extended {w : Workspace} (h : w.Registered)
    (modules : List Host.Module) {added : List Projection} (excused : Failure → Prop)
    (hfresh : ∀ p ∈ added, w.declarations.isDeclared p.name = false)
    (hexcused : added = [] ∨ ∀ failure, excused failure) :
    (Relaxation.extension w modules added excused).Compares w (w.extended modules added) where
  sound.hosts hn := List.take_append_of_le_length hn
  sound.visible := h.visible
  sound.isDeclared name := by
    show (w.extended modules added).declarations.isDeclared name = w.declarations.isDeclared name ∨
      w.declarations.isDeclared name = false ∧ ∀ failure, excused failure
    rw [Workspace.extended, Declarations.isDeclared_append]
    rcases hexcused with rfl | hexcused
    · exact .inl (Bool.or_false _)
    · cases hdeclared : w.declarations.isDeclared name with
      | true => exact .inl rfl
      | false => exact .inr ⟨rfl, hexcused⟩
  sound.resolve g id _ hdeclared := Declarations.resolve?_append hfresh g id hdeclared
  sound.get id := by
    show (w.declarations.projections ++ added)[id.index]? = w.declarations.projections[id.index]? ∨
      w.declarations.projections[id.index]? = none ∧ ∀ failure, excused failure
    rcases hexcused with rfl | hexcused
    · rw [List.append_nil]
      exact .inl rfl
    · rcases Nat.lt_or_ge id.index w.declarations.projections.length with hold | hnew
      · exact .inl (List.getElem?_append_left hold)
      · exact .inr ⟨List.getElem?_eq_none hnew, hexcused⟩
  sound.absentMember := .inl rfl
  sound.maxDepth := .inl rfl
  sound.levels := by
    have hheight := Declarations.height_le_append w.declarations.projections added
    exact Nat.succ_le_succ (Nat.mul_le_mul_right _ (Nat.succ_le_succ hheight))
  strict := rfl
  lax := rfl
  graph := rfl
  metadata := rfl

namespace Workspace

/-- What is declared in a workspace after another one. -/
def declaredSince (w w' : Workspace) : List Projection :=
  w'.declarations.projections.drop w.declarations.projections.length

/-- **Extending a program conserves its runs.** However modules are imported and projections of new
names are declared, a call that succeeds does the same afterwards. If modules are only imported, any
call does the same. -/
theorem runs_conserved (g : Graph) (past later : List Event) (hlater : ∀ e ∈ later, e.Extends)
    (hfresh : ∀ p ∈ (built g past).declaredSince (built g (past ++ later)),
      (built g past).declarations.isDeclared p.name = false) (r : Request) :
    (∀ id, ((built g past).tryProject r.node r.handle r.args).1 = .ok id →
      Alike ((built g past).tryProject r.node r.handle r.args)
        ((built g (past ++ later)).tryProject r.node r.handle r.args)) ∧
    (∀ edits, ((built g past).tryInstructions r.node r.handle r.args).1 = .ok edits →
      Alike ((built g past).tryInstructions r.node r.handle r.args)
        ((built g (past ++ later)).tryInstructions r.node r.handle r.args)) ∧
    ((∀ e ∈ later, e.Imports) →
      Alike ((built g past).tryProject r.node r.handle r.args)
        ((built g (past ++ later)).tryProject r.node r.handle r.args) ∧
      Alike ((built g past).tryInstructions r.node r.handle r.args)
        ((built g (past ++ later)).tryInstructions r.node r.handle r.args)) := by
  obtain ⟨modules, added, hextended, himports⟩ := exists_extended (w := built g past) hlater
  have hbuilt : built g (past ++ later) = (built g past).extended modules added := by
    rw [built, List.foldl_append]
    exact hextended
  rw [hbuilt] at hfresh ⊢
  have hadded : (built g past).declaredSince ((built g past).extended modules added) = added :=
    List.drop_left
  rw [hadded] at hfresh
  have hregistered := registered_built g past
  have hcompares := Relaxation.compares_extended hregistered modules (fun _ => True) hfresh
    (.inr fun _ => trivial)
  refine ⟨fun id hid => hcompares.tryProject fun failure hfailure => ?_,
    fun edits hedits => hcompares.tryInstructions fun failure hfailure => ?_, fun hall => ?_⟩
  · rw [hid] at hfailure
    cases hfailure
  · rw [hedits] at hfailure
    cases hfailure
  · -- nothing is declared, so no failure needs an excuse
    have hunexcused := Relaxation.compares_extended hregistered modules (fun _ => False) hfresh
      (.inl (himports hall))
    exact ⟨hunexcused.tryProject fun _ _ => id, hunexcused.tryInstructions fun _ _ => id⟩

/-- A module with a function that answers a number. -/
def answering (n : Nat) : Host.Module :=
  (Host.Module.empty "answers").withFunction "answer" fun _ => return .number (.ofNat n)

def earlySteps : List Event :=
  [.construct (.model "Foo"), .importModule (answering 42),
    .declare "early" "projection model#early \x7b to \x7b return answer(self); \x7d \x7d"]

/-- A module of the same name and with the same function, and a projection that calls it. -/
def lateSteps : List Event :=
  [.importModule (answering 43),
    .declare "late" "projection model#late \x7b to \x7b return answer(self); \x7d \x7d"]

def ask : Request := ⟨⟨25⟩, ⟨⟨0⟩, .forward⟩, []⟩

/-- The first projection keeps its answer. -/
theorem runs_conserved_answer :
    ((built .initial earlySteps).tryProject ask.node ask.handle ask.args).1 = .ok ⟨26⟩ ∧
      Alike ((built .initial earlySteps).tryProject ask.node ask.handle ask.args)
        ((built .initial (earlySteps ++ lateSteps)).tryProject ask.node ask.handle ask.args) ∧
      ((built .initial (earlySteps ++ lateSteps)).declarations.get? ⟨1⟩).map Projection.name =
        some "late" := by
  have hlater : ∀ e ∈ lateSteps, e.Extends := by
    intro e he
    rcases List.mem_pair.mp he with rfl | rfl
    · trivial
    · trivial
  have hfresh : ∀ p ∈ (built .initial earlySteps).declaredSince
      (built .initial (earlySteps ++ lateSteps)),
      (built .initial earlySteps).declarations.isDeclared p.name = false := by
    decide +kernel
  have hresult : ((built .initial earlySteps).tryProject ask.node ask.handle ask.args).1 =
      .ok ⟨26⟩ := by decide +kernel
  obtain ⟨hproject, -, -⟩ := runs_conserved .initial earlySteps lateSteps hlater hfresh ask
  exact ⟨hresult, hproject _ hresult, by decide +kernel⟩

end Workspace

end SchemaProjection
