import SchemaProjection.Proofs.Workspace.Endings

/-!
# More permissive options

Options can only refuse. A run that does not come to the recursion limit does the same under any
higher limit, and a run that succeeds although a missing member would be an error does the same if
such members are ignored (`Workspace.options_relaxed`).

Both are cases of one comparison (`Relaxation.options_sound`). The limit and the policy are read
deep inside a run, and another answer there would change all that follows. But where the options
make a difference the strict run fails, and no failure is ever recovered from.
-/

namespace SchemaProjection

/-- A workspace, and the same one with other options. -/
def Relaxation.options (w : Workspace) (options : Options) (excused : Failure → Prop) :
    Relaxation :=
  ⟨w.setting, Workspace.setting { w with options }, excused, fun _ => True⟩

/-- **Options are relaxed soundly** if the recursion limit is not lower, and where the policy on
missing members changes, it is from failing to ignoring. -/
theorem Relaxation.compares_options {w : Workspace} {options : Options} {excused : Failure → Prop}
    (hpolicy : options.absentMember = w.options.absentMember ∨
      w.options.absentMember = .error ∧ ∀ failure, excused failure)
    (hdepth : w.options.maxDepth ≤ options.maxDepth)
    (hlimit : ∀ failure, failure.sort = .recursionLimit → excused failure) :
    (Relaxation.options w options excused).Compares w { w with options } where
  sound.hosts _ := rfl
  sound.visible _ _ := trivial
  sound.isDeclared _ := .inl rfl
  sound.resolve _ _ _ _ := rfl
  sound.get _ := .inl rfl
  sound.absentMember := hpolicy
  sound.maxDepth := .inr ⟨hdepth, hlimit⟩
  sound.levels := by
    show (w.declarations.height + 1) * w.options.maxDepth + 1 ≤
      (w.declarations.height + 1) * options.maxDepth + 1
    exact Nat.succ_le_succ (Nat.mul_le_mul_left _ hdepth)
  strict := rfl
  lax := rfl
  graph := rfl
  metadata := rfl

namespace Workspace

/-- **More permissive options only matter to runs that fail.** Unless a call fails at the recursion
limit, it does the same under any higher limit. If a missing member is an error and a call succeeds,
it does the same if missing members are ignored. -/
theorem options_relaxed (w : Workspace) (r : Request) :
    (∀ depth, w.options.maxDepth ≤ depth →
      ((∀ failure, (w.tryProject r.node r.handle r.args).1 = .error failure →
          failure.sort ≠ .recursionLimit) →
        Alike (w.tryProject r.node r.handle r.args)
          (tryProject { w with options := ⟨w.options.absentMember, depth⟩ } r.node r.handle
            r.args)) ∧
      ((∀ failure, (w.tryInstructions r.node r.handle r.args).1 = .error failure →
          failure.sort ≠ .recursionLimit) →
        Alike (w.tryInstructions r.node r.handle r.args)
          (tryInstructions { w with options := ⟨w.options.absentMember, depth⟩ } r.node r.handle
            r.args))) ∧
    (w.options.absentMember = .error →
      (∀ id, (w.tryProject r.node r.handle r.args).1 = .ok id →
        Alike (w.tryProject r.node r.handle r.args)
          (tryProject { w with options := ⟨.ignore, w.options.maxDepth⟩ } r.node r.handle
            r.args)) ∧
      ∀ edits, (w.tryInstructions r.node r.handle r.args).1 = .ok edits →
        Alike (w.tryInstructions r.node r.handle r.args)
          (tryInstructions { w with options := ⟨.ignore, w.options.maxDepth⟩ } r.node r.handle
            r.args)) := by
  constructor
  · intro depth hdepth
    have hcompares : (Relaxation.options w ⟨w.options.absentMember, depth⟩
        (·.sort = .recursionLimit)).Compares w _ :=
      Relaxation.compares_options (.inl rfl) hdepth fun _ hsort => hsort
    exact ⟨hcompares.tryProject, hcompares.tryInstructions⟩
  · intro herror
    -- any failure is an excuse, since a run that succeeds has none
    have hcompares : (Relaxation.options w ⟨.ignore, w.options.maxDepth⟩
        fun _ => True).Compares w _ :=
      Relaxation.compares_options (.inr ⟨herror, fun _ => trivial⟩) (Nat.le_refl _)
        fun _ _ => trivial
    refine ⟨fun id hid => hcompares.tryProject fun failure hfailure => ?_,
      fun edits hedits => hcompares.tryInstructions fun failure hfailure => ?_⟩
    · rw [hid] at hfailure
      cases hfailure
    · rw [hedits] at hfailure
      cases hfailure

/-- A projection that applies another one, which deletes a property. -/
def layeredSteps : List Event :=
  [.construct (.model "User"), .construct (.property ⟨25⟩ "name" ⟨10⟩ false),
    .setOptions ⟨.error, 2⟩,
    .declare "layers" ("projection model#bare \x7b to \x7b " ++
      "self.deleteProperty(\"name\"); \x7d \x7d " ++
      "projection model#peeled \x7b to \x7b return self#bare; \x7d \x7d")]

def layeredWorkspace : Workspace := layeredSteps.foldl after (ofGraph .initial)

def peel : Request := ⟨⟨25⟩, ⟨⟨1⟩, .forward⟩, []⟩

/-- Two activations are just enough, and the property is there. -/
theorem options_relaxed_layered :
    (layeredWorkspace.tryProject peel.node peel.handle peel.args).1 = .ok ⟨27⟩ ∧
      Alike (layeredWorkspace.tryProject peel.node peel.handle peel.args)
        (tryProject { layeredWorkspace with options := ⟨.error, 256⟩ } peel.node peel.handle
          peel.args) ∧
      Alike (layeredWorkspace.tryProject peel.node peel.handle peel.args)
        (tryProject { layeredWorkspace with options := ⟨.ignore, 2⟩ } peel.node peel.handle
          peel.args) := by
  have hresult : (layeredWorkspace.tryProject peel.node peel.handle peel.args).1 = .ok ⟨27⟩ := by
    decide +kernel
  have hoptions : layeredWorkspace.options = ⟨.error, 2⟩ := by decide +kernel
  obtain ⟨hdepth, hpolicy⟩ := options_relaxed layeredWorkspace peel
  rw [hoptions] at hdepth hpolicy
  refine ⟨hresult, (hdepth 256 (by decide)).1 fun failure hfailure => ?_, (hpolicy rfl).1 _ hresult⟩
  rw [hresult] at hfailure
  cases hfailure

end Workspace

end SchemaProjection
