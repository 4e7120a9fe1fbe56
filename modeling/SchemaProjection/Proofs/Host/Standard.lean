import SchemaProjection.Host.Doc
import SchemaProjection.Host.Versioning
import SchemaProjection.Proofs.Metadata

/-!
# The standard modules

The modules `doc` and `versioning` export functions of a few forms only: decorators that record
something about the node they are applied to (`Host.Recorder`), and functions that read a record
back (`Host.Reader`). Both are told apart by what they do to metadata.

* A recorder writes plain values, and only to the node that is its first argument, which is in the
  graph (`Host.Recorder.metadataAfter`).
* A reader changes nothing (`Host.Reader.metadataAfter`).
-/

namespace SchemaProjection

/-- The metadata that a host function leaves behind, whether it returns or fails. -/
def Host.Function.metadataAfter (f : Host.Function) (args : List Value) (graph : Graph)
    (metadata : Metadata) : Metadata :=
  match ((f args).run graph).run metadata with
  | .ok _ after => after
  | .error _ after => after

/-- A value that refers to no node. -/
def Value.Plain : Value → Prop
  | .type _ => False
  | _ => True

/-- Some entries of a node were written, of plain values. -/
inductive Metadata.Written (id : NodeId) (m : Metadata) : Metadata → Prop
  | refl : Written id m m
  | set {after : Metadata} (key : Metadata.Key) (value : Value) (plain : value.Plain) :
    Written id m after → Written id m (after.set key id value)

namespace Metadata.Written

variable {id : NodeId} {m after : Metadata} {n : Nat}

theorem within (h : m.Written id after) (hid : id.index < n) (hm : m.Within n) :
    after.Within n := by
  induction h with
  | refl => exact hm
  | set key value plain _ ih => exact ih.set key value hid

theorem before (h : m.Written id after) (hid : n ≤ id.index) (key : Metadata.Key) :
    after.before n key = m.before n key := by
  induction h with
  | refl => rfl
  | set k value plain _ ih => rw [Metadata.before_set _ k value hid, ih]

end Metadata.Written

namespace Host

/-! ### Exports of a module -/

theorem Exports.mem_insert {exports : Exports} {name : String} {f : Function}
    {e : String × Function} (h : e ∈ exports.insert name f) : e.2 = f ∨ e ∈ exports := by
  induction exports with
  | nil => exact .inl (List.mem_singleton.mp h ▸ rfl)
  | cons head rest ih =>
    obtain ⟨k, old⟩ := head
    rw [Exports.insert] at h
    split at h
    · rcases List.mem_cons.mp h with rfl | hold
      · exact .inl rfl
      · exact .inr hold
    split at h
    · rcases List.mem_cons.mp h with rfl | hrest
      · exact .inl rfl
      · exact .inr (List.mem_cons_of_mem _ hrest)
    · rcases List.mem_cons.mp h with rfl | hrest
      · exact .inr List.mem_cons_self
      · exact (ih hrest).imp_right (List.mem_cons_of_mem _)

/-- The exports of a module of one sort. -/
def Module.exports (m : Module) : ExportSort → Exports
  | .function => m.functions
  | .decorator => m.decorators

theorem Module.mem_of_export? {m : Module} {sort : ExportSort} {name : String} {f : Function}
    (h : m.export? sort name = some f) : (name, f) ∈ m.exports sort := by
  have hmem : ∀ {exports : Exports}, exports.lookup name = some f → (name, f) ∈ exports := by
    intro exports hlookup
    obtain ⟨front, back, rfl, -⟩ := List.lookup_eq_some_iff.mp hlookup
    exact List.mem_append_right _ List.mem_cons_self
  cases sort with
  | function => exact hmem h
  | decorator => exact hmem h

/-- What is found among modules is an export of one of them. -/
theorem mem_of_find? {modules : List Module} {sort : ExportSort} {name : String} {f : Function}
    (h : find? modules sort name = some f) : ∃ m ∈ modules, (name, f) ∈ m.exports sort := by
  obtain ⟨m, hm, hexport⟩ := List.exists_of_findSome?_eq_some h
  exact ⟨m, List.mem_reverse.mp hm, Module.mem_of_export? hexport⟩

/-! ### Recorders and readers -/

/-- The decorators of the standard modules. -/
inductive Recorder : Function → Prop
  | text (key : Metadata.Key) : Recorder (Doc.attach key)
  | version (function : String) (key : Metadata.Key) :
    Recorder (Versioning.recordVersion function key)
  | rename (keys : Versioning.Keys) : Recorder (Versioning.recordRename keys)

/-- The functions of the standard modules. -/
inductive Reader : Function → Prop
  | text (key : Metadata.Key) : Reader (Doc.getDoc key)
  | record (function : String) (key : Metadata.Key) (default : Value) (plain : default.Plain) :
    Reader (Versioning.readRecord function key default)

/-- An instance of one of the two modules that come with the library. -/
def Module.Standard (m : Module) : Prop :=
  (∃ key, m = Doc.module key) ∨ ∃ keys, m = Versioning.module keys

variable {m : Module}

theorem Module.Standard.recorder (hm : m.Standard) {e : String × Function}
    (h : e ∈ m.exports .decorator) : Recorder e.2 := by
  -- one case for each export that the modules were built with
  rcases hm with ⟨key, rfl⟩ | ⟨keys, rfl⟩
  · rcases Exports.mem_insert h with heq | hnone
    · exact heq ▸ .text key
    · cases hnone
  · rcases Exports.mem_insert h with heq | h
    · exact heq ▸ .rename keys
    rcases Exports.mem_insert h with heq | h
    · exact heq ▸ .version _ _
    rcases Exports.mem_insert h with heq | hnone
    · exact heq ▸ .version _ _
    · cases hnone

theorem Module.Standard.reader (hm : m.Standard) {e : String × Function}
    (h : e ∈ m.exports .function) : Reader e.2 := by
  rcases hm with ⟨key, rfl⟩ | ⟨keys, rfl⟩
  · rcases Exports.mem_insert h with heq | hnone
    · exact heq ▸ .text key
    · cases hnone
  · rcases Exports.mem_insert h with heq | h
    · exact heq ▸ .record _ _ _ trivial
    rcases Exports.mem_insert h with heq | h
    · exact heq ▸ .record _ _ _ trivial
    rcases Exports.mem_insert h with heq | h
    · exact heq ▸ .record _ _ _ trivial
    rcases Exports.mem_insert h with heq | hnone
    · exact heq ▸ .record _ _ _ trivial
    · cases hnone

/-! ### What they do to metadata -/

namespace Call

variable {α β : Type} {graph : Graph} {metadata : Metadata} {P : Metadata → Prop}

/-- What a call comes to: its result or fault, and the metadata that it leaves. -/
def result (x : Call α) (graph : Graph) (metadata : Metadata) :
    EStateM.Result Fault Metadata α :=
  (x.run graph).run metadata

theorem result_bind (x : Call α) (f : α → Call β) :
    (x >>= f).result graph metadata =
      match x.result graph metadata with
      | .ok a after => (f a).result graph after
      | .error fault after => .error fault after := by
  simp only [result, ReaderT.run_bind, EStateM.run_bind]
  cases (x.run graph).run metadata <;> rfl

/-- Looking for a node among the arguments changes nothing, and it finds nodes of the graph only. -/
theorem result_nodeAt (function : String) (args : List Value) (position : Nat) :
    (nodeAt function args position).result graph metadata =
      match args[position]? with
      | some (.type id) =>
        if graph.contains id then .ok id metadata
        else .error (.expected function (.typeAt (position + 1)) (some (.type id))) metadata
      | some value => .error (.expected function (.typeAt (position + 1)) (some value)) metadata
      | none => .error (.expected function (.argumentCount (position + 1)) none) metadata := by
  unfold nodeAt
  cases args[position]? with
  | none => rfl
  | some v =>
    cases v with
    | type id =>
      show (if graph.contains id then (pure id : Call NodeId) else throw _).result graph metadata =
        _
      by_cases hid : graph.contains id
      · simp only [if_pos hid]
        rfl
      · simp only [if_neg hid]
        rfl
    | absent | bool | number | string => rfl

/-- Something holds of the metadata that a call leaves, whether it returns or fails. -/
def Leaves (x : Call α) (graph : Graph) (metadata : Metadata) (P : Metadata → Prop) : Prop :=
  match x.result graph metadata with
  | .ok _ after => P after
  | .error _ after => P after

theorem leaves_nodeAt_bind {function : String} {args : List Value} {position : Nat}
    {f : NodeId → Call α} (hfault : P metadata)
    (hnode : ∀ id, args[position]? = some (.type id) → graph.contains id →
      (f id).Leaves graph metadata P) :
    (nodeAt function args position >>= f).Leaves graph metadata P := by
  rw [Leaves, result_bind, result_nodeAt]
  cases harg : args[position]? with
  | none => exact hfault
  | some v =>
    cases v with
    | type id =>
      by_cases hid : graph.contains id
      · simp only [if_pos hid]
        exact hnode id harg hid
      · simp only [if_neg hid]
        exact hfault
    | absent | bool | number | string => exact hfault

theorem leaves_versionOf_bind {function : String} {args : List Value} {f : Value → Call α}
    (hfault : P metadata) (hversion : ∀ v, v.Plain → (f v).Leaves graph metadata P) :
    (Versioning.versionOf function args >>= f).Leaves graph metadata P := by
  rw [Leaves, result_bind, Versioning.versionOf]
  cases args[1]? with
  | none => exact hfault
  | some v =>
    cases v with
    | number x => exact hversion _ trivial
    | absent | bool | string | type => exact hfault

theorem Leaves.metadataAfter {f : Function} {args : List Value}
    (h : (f args).Leaves graph metadata P) : P (f.metadataAfter args graph metadata) := by
  rw [Function.metadataAfter]
  unfold Leaves result at h
  split at h
  · next heq => rw [heq]; exact h
  · next heq => rw [heq]; exact h

end Call

section

variable {f : Function} {args : List Value} {g : Graph} {m after : Metadata}

theorem metadataAfter_of_ok {value : Value} (h : (f args).result g m = .ok value after) :
    f.metadataAfter args g m = after := by
  rw [Call.result] at h
  rw [Function.metadataAfter, h]

theorem metadataAfter_of_error {fault : Fault} (h : (f args).result g m = .error fault after) :
    f.metadataAfter args g m = after := by
  rw [Call.result] at h
  rw [Function.metadataAfter, h]

end

variable {f : Function}

theorem Reader.metadataAfter (hf : Reader f) (args : List Value) (graph : Graph)
    (metadata : Metadata) : f.metadataAfter args graph metadata = metadata := by
  refine Call.Leaves.metadataAfter (P := (· = metadata)) ?_
  cases hf with
  | text key => exact Call.leaves_nodeAt_bind rfl fun id _ _ => Eq.refl metadata
  | record function key default plain =>
    exact Call.leaves_nodeAt_bind rfl fun id _ _ => Eq.refl metadata

/-- The node that a recorder is applied to, if it writes anything. -/
def WritesTo (args : List Value) (graph : Graph) (metadata after : Metadata) : Prop :=
  after = metadata ∨
    ∃ id, args.head? = some (.type id) ∧ graph.contains id ∧ metadata.Written id after

/-- **A recorder writes plain values to the node it is applied to**, or nothing. -/
theorem Recorder.metadataAfter (hf : Recorder f) (args : List Value) (graph : Graph)
    (metadata : Metadata) :
    WritesTo args graph metadata (f.metadataAfter args graph metadata) := by
  have hhead : ∀ {id}, args[0]? = some (.type id) → args.head? = some (.type id) := by
    intro id h
    rw [List.head?_eq_getElem?]
    exact h
  refine Call.Leaves.metadataAfter (P := WritesTo args graph metadata) ?_
  cases hf with
  | text key =>
    refine Call.leaves_nodeAt_bind (.inl rfl) fun id harg hid => ?_
    dsimp only
    split
    · exact .inr ⟨id, hhead harg, hid, .set key _ trivial .refl⟩
    · exact .inl rfl
    · exact .inl rfl
  | version function key =>
    refine Call.leaves_nodeAt_bind (.inl rfl) fun id harg hid => ?_
    refine Call.leaves_versionOf_bind (.inl rfl) fun v hv => ?_
    exact .inr ⟨id, hhead harg, hid, .set key v hv .refl⟩
  | rename keys =>
    refine Call.leaves_nodeAt_bind (.inl rfl) fun id harg hid => ?_
    refine Call.leaves_versionOf_bind (.inl rfl) fun v hv => ?_
    dsimp only
    split
    · exact .inr ⟨id, hhead harg, hid, .set _ _ trivial (.set _ v hv .refl)⟩
    · exact .inl rfl

end Host

end SchemaProjection
