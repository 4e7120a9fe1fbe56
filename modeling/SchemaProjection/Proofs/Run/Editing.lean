import SchemaProjection.Proofs.Run.Moves
import SchemaProjection.Run.Editing

/-!
# Edits as steps of a run

Every edit moves and keeps the stack (`Edits.steps_run`). A node that a decorator is going to be
applied to is made the run's own first: what `Edits.materialize` returns does not stand before the
watermark (`Edits.watermark_le_of_materialize`).
-/

namespace SchemaProjection.Edits

open Eval

variable {setting : Setting} {run : Run} {mayReturn : Bool}

/-! ### Arguments -/

theorem steps_stringArg (call : MethodCall) (position : Nat) :
    Steps setting run mayReturn (stringArg call position) := by
  unfold stringArg
  split
  · exact .pure _
  · exact .fail _ _
  · exact .fail _ _

theorem steps_membersOf (call : MethodCall) (collection : Collection) :
    Steps setting run mayReturn (membersOf call collection) := by
  refine Steps.graph.bind fun g after _ => ?_
  split
  · exact .pure _
  · exact .fail _ _

theorem steps_existing (call : MethodCall) (members : NameTable) (name : String)
    (absence : String → String → Absence) :
    Steps setting run mayReturn (existing call members name absence) := by
  unfold existing
  split
  · exact .pure _
  · exact (Steps.describe _).bind fun _ _ _ => .fail _ _

theorem steps_requireFree (call : MethodCall) (members : NameTable) (name : String) :
    Steps setting run mayReturn (requireFree call members name) := by
  unfold requireFree
  split
  · exact (Steps.describe _).bind fun _ _ _ => .fail _ _
  · exact .pure _

theorem steps_projectionArg (call : MethodCall) :
    Steps setting run mayReturn (projectionArg call) := by
  unfold projectionArg
  dsimp only
  split
  · exact .pure _
  · exact .pure _
  · exact .fail _ _

theorem steps_valueArgs (call : MethodCall) (operands : List Operand) :
    Steps setting run mayReturn (valueArgs call operands) := by
  induction operands generalizing run with
  | nil => exact .pure _
  | cons operand rest ih =>
    cases operand with
    | value v => exact ih.bind fun _ _ _ => .pure _
    | members ids => exact .fail _ _
    | projection name => exact .fail _ _

/-! ### Taking effect -/

theorem steps_conclude (call : MethodCall) (updated : NodeId) (edit : Edit) (target : String)
    (args : List Value) (result : Value) :
    Steps setting run mayReturn (conclude call updated edit target args result) := by
  refine Steps.self.bind fun self after _ => ?_
  split
  · exact (Steps.setSelf _).bind fun _ _ _ => (Steps.record _ _ _).bind fun _ _ _ => .pure _
  · exact .pure _

/-! ### Edits of members -/

theorem steps_memberValue (call : MethodCall) (collection : Collection) :
    Steps setting run mayReturn (memberValue call collection) := by
  unfold memberValue
  dsimp only
  split
  · exact .pure _
  · split
    · exact .pure _
    · exact .fail _ _
  · exact .fail _ _

theorem steps_add (call : MethodCall) (collection : Collection) :
    Steps setting run mayReturn (add call collection) := by
  refine (steps_stringArg call 0).bind fun name _ _ => ?_
  refine (steps_membersOf call collection).bind fun members _ _ => ?_
  refine (steps_memberValue call collection).bind fun value _ _ => ?_
  refine (steps_requireFree call members name).bind fun _ _ _ => ?_
  refine (Steps.build (Building.grows_newMember collection name value)).bind fun member _ _ => ?_
  refine (Steps.build (Building.grows_deriveMembers _ _)).bind fun updated _ _ => ?_
  exact steps_conclude _ _ _ _ _ _

theorem steps_delete (call : MethodCall) (collection : Collection) :
    Steps setting run mayReturn (delete call collection) := by
  refine (steps_stringArg call 0).bind fun name _ _ => ?_
  refine (steps_membersOf call collection).bind fun members _ _ => ?_
  split
  · refine (Steps.build (Building.grows_deriveMembers _ _)).bind fun updated _ _ => ?_
    exact steps_conclude _ _ _ _ _ _
  · refine Steps.read.bind fun options _ _ => ?_
    split
    · exact .pure _
    · exact (Steps.describe _).bind fun _ _ _ => .fail _ _

theorem steps_rename (call : MethodCall) (collection : Collection) :
    Steps setting run mayReturn (rename call collection) := by
  refine (steps_stringArg call 0).bind fun old _ _ => ?_
  refine (steps_stringArg call 1).bind fun new _ _ => ?_
  refine (steps_membersOf call collection).bind fun members _ _ => ?_
  refine (steps_existing call members old _).bind fun member _ _ => ?_
  split
  · exact .pure _
  · refine (steps_requireFree call members new).bind fun _ _ _ => ?_
    refine (Steps.build (Building.grows_deriveRenamed member new)).bind fun renamed _ _ => ?_
    refine (Steps.build (Building.grows_deriveMembers _ _)).bind fun updated _ _ => ?_
    exact steps_conclude _ _ _ _ _ _

section Projecting

variable {apply : Apply}
  (happly : ∀ {run : Run} span node name args,
    Steps setting run mayReturn (apply span node name args))
include happly

theorem steps_projected (call : MethodCall) (collection : Collection) (member : NodeId)
    (projection : String) (args : List Value) :
    Steps setting run mayReturn (projected apply call collection member projection args) := by
  unfold projected
  split
  · exact happly _ _ _ _
  · refine Steps.graph.bind fun g _ _ => ?_
    split
    · exact .fail _ _
    · refine (happly _ _ _ _).bind fun result _ _ => ?_
      split
      · exact .pure _
      · exact .build (Building.grows_deriveType _ _)

theorem steps_project (call : MethodCall) (collection : Collection) :
    Steps setting run mayReturn (project apply call collection) := by
  refine (steps_stringArg call 0).bind fun name _ _ => ?_
  refine (steps_projectionArg call).bind fun projection _ _ => ?_
  refine (steps_valueArgs call _).bind fun args _ _ => ?_
  refine (steps_membersOf call collection).bind fun members _ _ => ?_
  refine (steps_existing call members name _).bind fun member _ _ => ?_
  refine (steps_projected happly call collection member projection args).bind fun result _ _ => ?_
  split
  · exact .pure _
  · refine (Steps.build (Building.grows_deriveMember _ _ _)).bind fun updated _ _ => ?_
    exact steps_conclude _ _ _ _ _ _

end Projecting

/-! ### Live members -/

theorem steps_live? (node : NodeId) : Steps setting run mayReturn (live? node) := by
  refine Steps.self.bind fun self _ _ => ?_
  refine Steps.graph.bind fun g _ _ => ?_
  split
  · exact .pure _
  · exact .pure _

/-- Looking for the live member changes nothing. -/
theorem ok_of_live? {node : NodeId} {found : Option (String × NodeId)} {after : Run}
    (h : (live? node).result setting run = .ok found after) : after = run := by
  obtain ⟨self, middle, hself, hfound⟩ := ok_of_bind h
  obtain ⟨rfl, -⟩ := ok_of_self hself
  obtain ⟨g, _, hgraph, hfound⟩ := ok_of_bind hfound
  cases hgraph
  split at hfound
  · cases hfound
    rfl
  · cases hfound
    rfl

theorem steps_materialize (node : NodeId) : Steps setting run mayReturn (materialize node) := by
  refine Steps.get.bind fun start _ hget => ?_
  cases hget
  dsimp only
  split
  · exact .pure _
  next hnode =>
  rw [Nat.not_le] at hnode
  refine Steps.self.bind fun self middle hself => ?_
  obtain ⟨rfl, -⟩ := ok_of_self hself
  split
  -- only old nodes are copied, so their copies are derivations from below the watermark
  · refine (Steps.build (Building.grows_derive hnode)).bind fun copy _ _ => ?_
    exact (Steps.setSelf _).bind fun _ _ _ => .pure _
  · refine (steps_live? node).bind fun found after hfound => ?_
    obtain rfl := ok_of_live? hfound
    split
    · next name live =>
      split
      · exact .pure _
      next hold =>
      rw [Nat.not_le] at hold
      refine (Steps.build (Building.grows_derive hold)).bind fun copy _ _ => ?_
      refine (Steps.build (Building.grows_deriveMember _ _ _)).bind fun updated _ _ => ?_
      exact (Steps.setSelf _).bind fun _ _ _ => .pure _
    · exact .build (Building.grows_derive hnode)

/-- **What a decorator is applied to belongs to the run**, if the watermark does not stand behind
the end of the graph. -/
theorem watermark_le_of_materialize {node id : NodeId} {after : Run}
    (hbegun : run.Begun)
    (h : (materialize node).result setting run = .ok id after) : run.watermark ≤ id.index := by
  obtain ⟨start, _, hget, hrest⟩ := ok_of_bind h
  cases hget
  dsimp only at hrest
  split at hrest
  -- a node of the run's own is handed on as it is
  · next hnode =>
    cases hrest
    exact hnode
  obtain ⟨self, middle, hself, hrest⟩ := ok_of_bind hrest
  obtain ⟨rfl, -⟩ := ok_of_self hself
  split at hrest
  -- any other way ends in a copy, which stands at the end of the graph
  · obtain ⟨copy, _, hcopy, hset⟩ := ok_of_bind hrest
    obtain ⟨_, _, -, hid⟩ := ok_of_bind hset
    cases hid
    cases hcopy
    exact hbegun
  obtain ⟨found, _, hfound, hrest⟩ := ok_of_bind hrest
  obtain rfl := ok_of_live? hfound
  split at hrest
  · split at hrest
    · next hlive =>
      cases hrest
      exact hlive
    obtain ⟨copy, _, hcopy, hmember⟩ := ok_of_bind hrest
    obtain ⟨updated, _, -, hset⟩ := ok_of_bind hmember
    obtain ⟨_, _, -, hid⟩ := ok_of_bind hset
    cases hid
    cases hcopy
    exact hbegun
  · cases hrest
    exact hbegun

/-! ### Types -/

theorem steps_retyped? (role : TypeRole) (node type : NodeId) :
    Steps setting run mayReturn (retyped? role node type) := by
  refine Steps.graph.bind fun g _ _ => ?_
  split
  · exact .pure _
  · refine Steps.bind (.build ?_) fun _ _ _ => .pure _
    cases role with
    | declared => exact Building.grows_deriveType _ _
    | returned => exact Building.grows_deriveReturnType _ _

theorem steps_typeArg (call : MethodCall) : Steps setting run mayReturn (typeArg call) := by
  unfold typeArg
  split
  · exact .fail _ _
  · exact .fail _ _
  · exact .build (Building.grows_typeOf _)
  · exact .fail _ _

theorem steps_setType (call : MethodCall) (role : TypeRole) :
    Steps setting run mayReturn (setType call role) := by
  refine (steps_typeArg call).bind fun type _ _ => ?_
  refine Steps.graph.bind fun g _ _ => ?_
  dsimp only
  split
  · refine Steps.self.bind fun self _ _ => ?_
    split
    · refine (steps_retyped? role _ type).bind fun updated? _ _ => ?_
      cases updated? with
      | none => exact .pure _
      | some updated =>
        exact (Steps.setSelf _).bind fun _ _ _ => (Steps.record _ _ _).bind fun _ _ _ => .pure _
    -- the receiver is not the node itself: it may still be a member of it
    · refine (steps_live? _).bind fun found _ _ => ?_
      cases found with
      | none =>
        refine (steps_retyped? role _ type).bind fun updated? _ _ => ?_
        cases updated? <;> exact .pure _
      | some entry =>
        refine (steps_retyped? role _ type).bind fun updated? _ _ => ?_
        cases updated? with
        | none => exact .pure _
        | some updated =>
          refine (Steps.build (Building.grows_deriveMember _ _ _)).bind fun container _ _ => ?_
          exact (Steps.setSelf _).bind fun _ _ _ => (Steps.record _ _ _).bind fun _ _ _ => .pure _
  · exact .fail_bind _ _ _

/-! ### Methods -/

theorem steps_get (call : MethodCall) (collection : Collection) :
    Steps setting run mayReturn (get call collection) := by
  refine (steps_stringArg call 0).bind fun name _ _ => ?_
  refine (steps_membersOf call collection).bind fun members _ _ => ?_
  exact (steps_existing call members name _).bind fun _ _ _ => .pure _

/-- **A method call is a step**, provided that applying a projection is one. -/
theorem steps_run {apply : Apply}
    (happly : ∀ {run : Run} span node name args,
      Steps setting run mayReturn (apply span node name args))
    (call : MethodCall) (method : Method) :
    Steps setting run mayReturn (Edits.run apply call method) := by
  cases method with
  | edit edit =>
    cases edit with
    | add c => exact steps_add call c
    | delete c => exact steps_delete call c
    | rename c => exact steps_rename call c
    | project c => exact steps_project happly call c
    | setType => exact steps_setType call .declared
    | setReturnType => exact steps_setType call .returned
  | get c => exact steps_get call c

end SchemaProjection.Edits
