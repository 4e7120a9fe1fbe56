import SchemaProjection.Proofs.Host.Standard
import SchemaProjection.Proofs.Reading

/-!
# Records of versions

The decorators of the module `versioning` write versions under three of its keys and names under the
fourth. If nobody else writes under these keys, all that stands there is of the right kind
(`Metadata.Fits`), so the functions of the module answer with three numbers and a string about every
node: its **record** (`Host.Versioning.Record`, `Host.Versioning.exists_shown`).

A record is read along the lineage of the node, so it shows the same in a graph that has grown
(`Host.Versioning.Record.Shown.mono`).
-/

namespace SchemaProjection

namespace Host.Versioning

/-! ### Keys -/

/-- The keys of an instance are four different ones, since each of them was fresh when `instantiate`
took it. -/
def Keys.Distinct (keys : Keys) : Prop :=
  [keys.addedOn, keys.removedOn, keys.renamedFromVersion, keys.renamedFromName].Nodup

instance (keys : Keys) : Decidable keys.Distinct := inferInstanceAs (Decidable (List.Nodup _))

/-- The keys that versions are written under. -/
def Keys.versions (keys : Keys) : List Metadata.Key :=
  [keys.addedOn, keys.removedOn, keys.renamedFromVersion]

/-- **The right kind of value for a key**: a version or a name. Keys of others may have any. -/
structure Keys.Fits (keys : Keys) (key : Metadata.Key) (v : Value) : Prop where
  version : key ∈ keys.versions → ∃ x, v = .number x
  name : key = keys.renamedFromName → ∃ s, v = .string s

variable {keys : Keys} {key : Metadata.Key}

theorem Keys.Distinct.fits_number (hkeys : keys.Distinct) (hkey : key ∈ keys.versions)
    (x : Double) : keys.Fits key (.number x) := by
  refine ⟨fun _ => ⟨x, rfl⟩, fun hname => ?_⟩
  have hnot : keys.renamedFromName ∉ keys.versions := by
    simp only [Keys.Distinct, List.nodup_cons, List.mem_cons, List.not_mem_nil, or_false] at hkeys
    simp only [Keys.versions, List.mem_cons, List.not_mem_nil, or_false]
    grind
  exact absurd (hname ▸ hkey) hnot

theorem Keys.Distinct.fits_string (hkeys : keys.Distinct) (s : String) :
    keys.Fits keys.renamedFromName (.string s) := by
  refine ⟨fun hversion => ?_, fun _ => ⟨s, rfl⟩⟩
  simp only [Keys.Distinct, List.nodup_cons, List.mem_cons, List.not_mem_nil, or_false] at hkeys
  simp only [Keys.versions, List.mem_cons, List.not_mem_nil, or_false] at hversion
  grind

theorem Keys.fits_foreign (hversions : key ∉ keys.versions) (hname : key ≠ keys.renamedFromName)
    (v : Value) : keys.Fits key v := ⟨fun h => absurd h hversions, fun h => absurd h hname⟩

end Host.Versioning

/-! ### Metadata of the right kind -/

/-- **All that stands under the keys of the module** is of the right kind. -/
def Metadata.Fits (m : Metadata) (keys : Host.Versioning.Keys) : Prop :=
  ∀ key id v, m.own? key id = some v → keys.Fits key v

namespace Metadata

variable {m : Metadata} {keys : Host.Versioning.Keys} {key : Key} {id : NodeId} {v : Value}

theorem fits_empty (keys : Host.Versioning.Keys) : Fits .empty keys := fun _ _ _ h => nomatch h

theorem Fits.set (hm : m.Fits keys) (hv : keys.Fits key v) (id : NodeId) :
    (m.set key id v).Fits keys := by
  intro k other u h
  rw [own?_set] at h
  split at h
  · next heq => exact heq.1 ▸ Option.some.inj h ▸ hv
  · exact hm k other u h

theorem Fits.delete (hm : m.Fits keys) (key : Key) (id : NodeId) : (m.delete key id).Fits keys :=
  fun k other u h => hm k other u (own?_of_own?_delete h)

theorem Fits.discardFrom (hm : m.Fits keys) (size : Nat) : (m.discardFrom size).Fits keys := by
  intro k other u h
  rw [own?_discardFrom] at h
  split at h
  · exact hm k other u h
  · cases h

/-- What is read along a lineage is of the right kind, too. -/
theorem Fits.read? (hm : m.Fits keys) {g : Graph} (h : m.read? g key id = some v) :
    keys.Fits key v := by
  obtain ⟨other, -, hown⟩ := List.exists_of_findSome?_eq_some h
  exact hm key other v hown

end Metadata

namespace Host.Versioning

variable {keys : Keys} {key : Metadata.Key} {m : Metadata} {g h : Graph} {id : NodeId}

/-! ### Decorators -/

theorem mem_decorators {e : String × Function} (he : e ∈ (module keys).exports .decorator) :
    (∃ name, ∃ key ∈ keys.versions, e.2 = recordVersion name key) ∨ e.2 = recordRename keys := by
  rcases Exports.mem_insert he with heq | he
  · exact .inr heq
  rcases Exports.mem_insert he with heq | he
  · exact .inl ⟨_, _, .tail _ (.head _), heq⟩
  rcases Exports.mem_insert he with heq | hnone
  · exact .inl ⟨_, _, .head _, heq⟩
  · cases hnone

theorem leaves_versionOf_bind {α : Type} {P : Metadata → Prop} {function : String}
    {args : List Value} {f : Value → Call α} (hfault : P m)
    (hversion : ∀ x, (f (.number x)).Leaves g m P) :
    (versionOf function args >>= f).Leaves g m P := by
  rw [Call.Leaves, Call.result_bind, versionOf]
  cases args[1]? with
  | none => exact hfault
  | some v =>
    cases v with
    | number x => exact hversion x
    | absent | bool | string | type => exact hfault

/-- **The exports of the module** write values of the right kind only. -/
theorem fits_metadataAfter (hkeys : keys.Distinct) {sort : ExportSort} {e : String × Function}
    (he : e ∈ (module keys).exports sort) (args : List Value) (g : Graph) (hm : m.Fits keys) :
    (e.2.metadataAfter args g m).Fits keys := by
  cases sort with
  | function =>
    have hreader : Reader e.2 := Module.Standard.reader (.inr ⟨keys, rfl⟩) he
    rw [hreader.metadataAfter]
    exact hm
  | decorator =>
    refine Call.Leaves.metadataAfter (P := (·.Fits keys)) ?_
    rcases mem_decorators he with ⟨name, key, hkey, heq⟩ | heq
    · rw [heq]
      refine Call.leaves_nodeAt_bind hm fun id _ _ => leaves_versionOf_bind hm fun x => ?_
      exact hm.set (hkeys.fits_number hkey x) id
    · -- the version is written first, and the name under its own key
      rw [heq]
      refine Call.leaves_nodeAt_bind hm fun id _ _ => leaves_versionOf_bind hm fun x => ?_
      dsimp only
      split
      · exact (hm.set (hkeys.fits_number (.tail _ (.tail _ (.head _))) x) id).set
          (hkeys.fits_string _) id
      · exact hm

/-! ### Records -/

/-- **What the module has on record about a node.** -/
structure Record where
  added : Double
  removed : Double
  renamed : Double
  oldName : String

/-- A function of the module answers with a value about a node. -/
def Answers (keys : Keys) (g : Graph) (m : Metadata) (function : String) (id : NodeId)
    (v : Value) : Prop :=
  ∃ key default, find? [module keys] .function function = some (readRecord function key default) ∧
    (m.read? g key id).getD default = v

/-- The four functions of the module show a record of a node. -/
structure Record.Shown (keys : Keys) (g : Graph) (m : Metadata) (id : NodeId) (r : Record) :
    Prop where
  added : Answers keys g m "getAddedOn" id (.number r.added)
  removed : Answers keys g m "getRemovedOn" id (.number r.removed)
  renamed : Answers keys g m "getRenamedFromVersion" id (.number r.renamed)
  oldName : Answers keys g m "getRenamedFromOldName" id (.string r.oldName)

theorem result_readRecord (hid : g.contains id) (function : String) (default : Value) :
    (readRecord function key default [.type id]).result g m =
      .ok ((m.read? g key id).getD default) m := by
  rw [readRecord, Call.result_bind, Call.result_nodeAt]
  dsimp only [List.getElem?_cons_zero]
  rw [if_pos hid]
  rfl

/-- Answers stay the same when the graph grows. -/
theorem Answers.mono {function : String} {v : Value} (ha : Answers keys g m function id v)
    (hg : g.Ordered) (hle : g ≤ h) (hid : g.contains id) : Answers keys h m function id v := by
  obtain ⟨key, default, hfound, hread⟩ := ha
  exact ⟨key, default, hfound, by rw [Metadata.read?_of_le hg hle (fun _ _ => rfl) hid, hread]⟩

theorem exists_number (hm : m.Fits keys) (hkey : key ∈ keys.versions) (g : Graph) (id : NodeId)
    (default : Double) : ∃ x, (m.read? g key id).getD (.number default) = .number x := by
  cases hread : m.read? g key id with
  | none => exact ⟨default, rfl⟩
  | some v => exact (hm.read? hread).version hkey

/-- **Every node has a record.** -/
theorem exists_shown (hm : m.Fits keys) (g : Graph) (id : NodeId) :
    ∃ r : Record, r.Shown keys g m id := by
  obtain ⟨added, hadded⟩ := exists_number hm (.head _) g id (-Double.ofNat 1)
  obtain ⟨removed, hremoved⟩ := exists_number hm (.tail _ (.head _)) g id (.infinity false)
  obtain ⟨renamed, hrenamed⟩ :=
    exists_number hm (.tail _ (.tail _ (.head _))) g id (-Double.ofNat 1)
  have hname : ∃ s, (m.read? g keys.renamedFromName id).getD (.string "") = .string s := by
    cases hread : m.read? g keys.renamedFromName id with
    | none => exact ⟨"", rfl⟩
    | some v => exact (hm.read? hread).name rfl
  obtain ⟨oldName, holdName⟩ := hname
  exact ⟨⟨added, removed, renamed, oldName⟩, ⟨_, _, rfl, hadded⟩, ⟨_, _, rfl, hremoved⟩,
    ⟨_, _, rfl, hrenamed⟩, ⟨_, _, rfl, holdName⟩⟩

end Host.Versioning

end SchemaProjection
