import Mathlib.Data.List.Find
import SchemaProjection.Proofs.Reading
import SchemaProjection.Proofs.Run.Moves

/-!
# Decorations

A **decoration** is a call of a decorator that has succeeded, and a **log** lists decorations in the
order in which they were made. `Run.Decorates` says by which log the moves of a run lead from one
state to another; every run has one (`Run.Reaches.exists_decorates`).

What a decorator records about a node is told by a log if under its key stands, for every node, an
argument of the last decoration of this node (`Metadata.Tells`). Then what is read along a lineage
is the argument of one decoration: the last one of the nearest node that has any
(`Metadata.Tells.read?`).
-/

namespace SchemaProjection

/-- **A call of a decorator** that has succeeded. -/
structure Decoration where
  name : String
  args : List Value

namespace Decoration

variable {log : List Decoration} {d : Decoration} {name : String} {id : NodeId} {g : Graph}

/-- The decorated node, which is the first argument. -/
def target? (d : Decoration) : Option NodeId :=
  match d.args with
  | .type id :: _ => some id
  | _ => none

/-- Whether the decorated node is in the graph. -/
def isIn (g : Graph) (d : Decoration) : Bool := d.target?.any g.contains

/-- What a call of an export adds to the log: itself, if it is a decorator and does not fail. -/
def ofCall (sort : Host.ExportSort) (name : String) (f : Host.Function) (args : List Value)
    (g : Graph) (m : Metadata) : List Decoration :=
  match sort, (f args).result g m with
  | .decorator, .ok _ _ => [⟨name, args⟩]
  | _, _ => []

/-- The last decoration of a node. -/
def last? (log : List Decoration) (name : String) (id : NodeId) : Option Decoration :=
  log.reverse.find? fun d => d.name = name ∧ d.target? = some id

/-- **The last decoration of the nearest node** in a lineage that has one. -/
def nearest? (log : List Decoration) (name : String) (g : Graph) (id : NodeId) :
    Option Decoration :=
  (g.lineage id).findSome? (last? log name)

theorem last?_concat (log : List Decoration) (d : Decoration) (name : String) (id : NodeId) :
    last? (log ++ [d]) name id =
      if d.name = name ∧ d.target? = some id then some d else last? log name id := by
  rw [last?, List.reverse_concat, List.find?_cons]
  by_cases h : d.name = name ∧ d.target? = some id
  · rw [if_pos h, decide_eq_true h]
  · rw [if_neg h, decide_eq_false h, last?]

/-- Other decorators do not matter. -/
theorem last?_append_of_ne {added : List Decoration} (h : ∀ d ∈ added, d.name ≠ name)
    (id : NodeId) : last? (log ++ added) name id = last? log name id := by
  have hnone : added.reverse.find? (fun d => d.name = name ∧ d.target? = some id) = none := by
    refine List.find?_eq_none.mpr fun d hd hfound => h d (List.mem_reverse.mp hd) ?_
    exact (of_decide_eq_true hfound).1
  rw [last?, List.reverse_append, List.find?_append, hnone, Option.none_or, last?]

theorem of_last?_eq_some (h : last? log name id = some d) :
    d ∈ log ∧ d.name = name ∧ d.target? = some id := by
  have hmem : d ∈ log.reverse := List.mem_of_find?_eq_some h
  obtain ⟨hname, htarget⟩ : d.name = name ∧ d.target? = some id := by
    simpa using List.find?_some h
  exact ⟨List.mem_reverse.mp hmem, hname, htarget⟩

theorem of_nearest?_eq_some (h : nearest? log name g id = some d) : d ∈ log ∧ d.name = name := by
  obtain ⟨node, -, hlast⟩ := List.exists_of_findSome?_eq_some h
  obtain ⟨hd, hname, -⟩ := of_last?_eq_some hlast
  exact ⟨hd, hname⟩

/-- Of a log the decorations of the nodes of a graph are left. -/
theorem last?_filter_isIn (log : List Decoration) (name : String) (g : Graph) (id : NodeId) :
    last? (log.filter (isIn g)) name id = if g.contains id then last? log name id else none := by
  have hin : ∀ d : Decoration, d.target? = some id → d.isIn g = g.contains id := by
    intro d htarget
    rw [isIn, htarget, Option.any_some]
  rw [last?, ← List.filter_reverse, List.find?_filter]
  split
  · next hid =>
    refine List.find?_congr fun d _ => decide_eq_decide.mpr ?_
    rw [decide_eq_true_iff]
    exact ⟨fun h => h.2, fun h => ⟨(hin d h.2).trans hid, h⟩⟩
  · next hid =>
    refine List.find?_eq_none.mpr fun d _ hfound => hid ?_
    obtain ⟨hkept, hlast⟩ := of_decide_eq_true hfound
    exact (hin d (of_decide_eq_true hlast).2).symm.trans hkept

end Decoration

/-! ### Runs -/

namespace Run

variable {setting : Setting} {r s t : Run}

/-- **The moves of a run make decorations.** Other moves than calls of exports are those that need
no module. -/
inductive Decorates (setting : Setting) (r : Run) : List Decoration → Run → Prop
  | refl : Decorates setting r [] r
  | move {log : List Decoration} {s t : Run} (before : Decorates setting r log s)
    (last : Move { setting with hosts := [] } s t) : Decorates setting r log t
  | call {log : List Decoration} {s : Run} (before : Decorates setting r log s) (visible : Nat)
    (sort : Host.ExportSort) (name : String) (f : Host.Function) (args : List Value)
    (found : Host.find? (setting.hosts.take visible) sort name = some f)
    (target : sort = .decorator → ∀ id, args.head? = some (.type id) → s.watermark ≤ id.index) :
    Decorates setting r (log ++ Decoration.ofCall sort name f args s.graph s.metadata)
      { s with metadata := f.metadataAfter args s.graph s.metadata }

/-- **Every run has a log.** -/
theorem Reaches.exists_decorates (h : Reaches setting r s) :
    ∃ log, Decorates setting r log s := by
  induction h with
  | refl => exact ⟨[], .refl⟩
  | tail _ hlast ih =>
    obtain ⟨log, hlog⟩ := ih
    cases hlast with
    | host visible sort name f args found target =>
      exact ⟨_, hlog.call visible sort name f args found target⟩
    | create shape => exact ⟨log, hlog.move (.create _ shape)⟩
    | derive id shape known same_kind =>
      exact ⟨log, hlog.move (.derive _ id shape known same_kind)⟩
    | stack activations => exact ⟨log, hlog.move (.stack _ activations)⟩
    | memo memo => exact ⟨log, hlog.move (.memo _ memo)⟩
    | trace trace => exact ⟨log, hlog.move (.trace _ trace)⟩

/-- Without modules nothing writes metadata, and the graph only grows. -/
theorem Move.of_no_hosts (h : Move { setting with hosts := [] } s t) :
    s.graph ≤ t.graph ∧ t.metadata = s.metadata := by
  cases h with
  | create shape => exact ⟨Graph.le_push _ _, rfl⟩
  | derive id shape known same_kind => exact ⟨Graph.le_push _ _, rfl⟩
  | host visible sort name f args found target =>
    rw [List.take_nil] at found
    exact nomatch found
  | stack | memo | trace => exact ⟨le_rfl, rfl⟩

end Run

/-! ### Records -/

namespace Metadata

variable {m : Metadata} {key : Key} {log : List Decoration} {name : String} {position : Nat}

/-- **A log tells what stands under a key**: for every node the argument at a position of its last
decoration. -/
def Tells (m : Metadata) (key : Key) (log : List Decoration) (name : String) (position : Nat) :
    Prop :=
  ∀ id, m.own? key id = (Decoration.last? log name id).bind (·.args[position]?)

/-- What writes under other keys, and decorates with others, changes nothing. -/
theorem Tells.of_own? (h : m.Tells key log name position) {after : Metadata}
    (hsame : ∀ id, after.own? key id = m.own? key id) {added : List Decoration}
    (hadded : ∀ d ∈ added, d.name ≠ name) : after.Tells key (log ++ added) name position := by
  intro id
  rw [hsame id, h id, Decoration.last?_append_of_ne hadded]

/-- **A decoration that records an argument** under the key. -/
theorem Tells.record (h : m.Tells key log name position) {after : Metadata} {id : NodeId}
    {value : Value} {d : Decoration}
    (hset : ∀ other, after.own? key other = if other = id then some value else m.own? key other)
    (hname : d.name = name) (htarget : d.target? = some id)
    (harg : d.args[position]? = some value) :
    after.Tells key (log ++ [d]) name position := by
  intro other
  rw [hset other, Decoration.last?_concat]
  by_cases hother : other = id
  · subst hother
    rw [if_pos rfl, if_pos ⟨hname, htarget⟩, Option.bind_some, harg]
  · rw [if_neg hother, if_neg fun hd => hother (Option.some.inj (hd.2.symm.trans htarget)), h other]

/-- **When nodes are released**, the decorations of the others tell what is left. -/
theorem Tells.kept (h : m.Tells key log name position) {after : Metadata} {g : Graph}
    (hkept : ∀ id, after.own? key id = if g.contains id then m.own? key id else none) :
    after.Tells key (log.filter (Decoration.isIn g)) name position := by
  intro id
  rw [hkept id, Decoration.last?_filter_isIn]
  split
  · exact h id
  · rfl

/-- **What is read along a lineage** is an argument of the last decoration of the nearest node. -/
theorem Tells.read? (h : m.Tells key log name position)
    (hargs : ∀ d ∈ log, d.name = name → d.args[position]?.isSome) (g : Graph) (id : NodeId) :
    m.read? g key id = (Decoration.nearest? log name g id).bind (·.args[position]?) := by
  rw [Metadata.read?, Decoration.nearest?]
  induction g.lineage id with
  | nil => rfl
  | cons node older ih =>
    rw [List.findSome?_cons, List.findSome?_cons, h node]
    cases hlast : Decoration.last? log name node with
    | none => exact ih
    | some d =>
      -- a decorated node has an entry, so that both end here
      obtain ⟨hd, hname, -⟩ := Decoration.of_last?_eq_some hlast
      obtain ⟨value, hvalue⟩ := Option.isSome_iff_exists.mp (hargs d hd hname)
      rw [Option.bind_some, hvalue]

end Metadata

end SchemaProjection
