import SchemaProjection.Proofs.Pairing.Basic

/-!
# Host functions side by side

Metadata is shifted (`Metadata.Shifted`) if every node has the entries under its new id that it had
under its old one. The entries name none but old nodes, so there is nothing to renumber in them.

The exports of the standard modules do the same on a graph with its metadata and on a shifted graph
with shifted metadata (`Host.Module.Standard.follows`): they read along lineages, which are shifted,
and they write plain values.
-/

namespace SchemaProjection

/-! ### Shifted metadata -/

/-- **The same entries at the shifted nodes.** No entry names a node that moves. -/
structure Metadata.Shifted (σ : Shift) (m m' : Metadata) : Prop where
  own?_move : ∀ key id, m'.own? key (σ.move id) = m.own? key id
  old : ∀ key id v, m.own? key id = some v → ∀ r ∈ refs v, r.index < σ.mark

theorem Value.Plain.refs_eq_nil {v : Value} (h : v.Plain) : Refers.refs v = [] := by
  cases v with
  | type => exact h.elim
  | absent | bool | number | string => rfl

theorem Value.Plain.renumber_eq {v : Value} (h : v.Plain) (ρ : NodeId → NodeId) :
    Refers.renumber ρ v = v :=
  renumber_eq_self fun id hid => by
    rw [h.refs_eq_nil] at hid
    cases hid

namespace Metadata.Shifted

variable {σ : Shift} {g h : Graph} {m m' : Metadata}

theorem renumber_own? (hm : m.Shifted σ m') {key : Key} {id : NodeId} {v : Value}
    (hv : m.own? key id = some v) : renumber σ.move v = v :=
  renumber_eq_self fun r hr => σ.move_of_lt (hm.old key id v hv r hr)

/-- What is read along a lineage is the same. -/
theorem read?_move (hm : m.Shifted σ m') (hs : g.Shifted σ h) (key : Key) (id : NodeId) :
    m'.read? h key (σ.move id) = m.read? g key id := by
  rw [read?, read?, hs.lineage_move, List.findSome?_map]
  have hown : m'.own? key ∘ σ.move = m.own? key := funext (hm.own?_move key)
  rw [hown]

theorem renumber_read? (hm : m.Shifted σ m') (key : Key) (id : NodeId) :
    renumber σ.move (m.read? g key id) = m.read? g key id := by
  cases hread : m.read? g key id with
  | none => rfl
  | some v =>
    obtain ⟨i, -, hv⟩ := List.exists_of_findSome?_eq_some hread
    exact congrArg some (hm.renumber_own? hv)

/-- Plain values are written on both sides. -/
theorem set (hm : m.Shifted σ m') (key : Key) (id : NodeId) {v : Value} (hv : v.Plain) :
    (m.set key id v).Shifted σ (m'.set key (σ.move id) v) where
  own?_move k i := by
    -- no other node is written to on the right, since ids stay apart
    have hmoved : k = key ∧ σ.move i = σ.move id ↔ k = key ∧ i = id := by
      rw [σ.move_injective.eq_iff]
    rw [own?_set, own?_set, hm.own?_move]
    by_cases h : k = key ∧ i = id
    · rw [if_pos h, if_pos (hmoved.mpr h)]
    · rw [if_neg h, if_neg fun heq => h (hmoved.mp heq)]
  old k i w hw r hr := by
    rw [own?_set] at hw
    split at hw
    · cases hw
      rw [hv.refs_eq_nil] at hr
      cases hr
    · exact hm.old k i w hw r hr

/-- The entries behind corresponding positions are dropped on both sides. -/
theorem discardFrom (hm : m.Shifted σ m') {n : Nat} (hn : σ.mark ≤ n) :
    (m.discardFrom n).Shifted σ (m'.discardFrom (n + σ.gap)) where
  own?_move key id := by
    have hlt := σ.index_move_lt_add id hn
    rw [own?_discardFrom, own?_discardFrom, hm.own?_move]
    by_cases hid : id.index < n
    · rw [if_pos hid, if_pos (hlt.mpr hid)]
    · rw [if_neg hid, if_neg fun h => hid (hlt.mp h)]
  old key id v hv := by
    rw [own?_discardFrom] at hv
    split at hv
    · exact hm.old key id v hv
    · cases hv

/-- What counts is the entries of each node. -/
theorem congr {n n' : Metadata} (hm : m.Shifted σ m') (h : ∀ key, n.entries key = m.entries key)
    (h' : ∀ key, n'.entries key = m'.entries key) : n.Shifted σ n' where
  own?_move key id := by
    rw [own?, own?, h, h']
    exact hm.own?_move key id
  old key id v hv := by
    rw [own?, h] at hv
    exact hm.old key id v hv

end Metadata.Shifted

/-! ### Calls side by side -/

namespace Host.Call

variable {σ : Shift} {g h : Graph} {m m' : Metadata} {α β : Type} [Refers α] [Refers β]

/-- **Two calls do the same**: both return, the second the renumbered value, and leave shifted
metadata, or both fail, the second with the renumbered fault. -/
def Follows (σ : Shift) (g h : Graph) (m m' : Metadata) (x y : Call α) : Prop :=
  match x.result g m, y.result h m' with
  | .ok a after, .ok b after' => b = renumber σ.move a ∧ after.Shifted σ after'
  | .error fault _, .error fault' _ => fault' = renumber σ.move fault
  | _, _ => False

theorem Follows.pure (hm : m.Shifted σ m') (a : α) :
    Follows σ g h m m' (pure a) (pure (renumber σ.move a)) := ⟨rfl, hm⟩

theorem Follows.bind {x y : Call α} {f f' : α → Call β} (hx : Follows σ g h m m' x y)
    (hf : ∀ a after after', after.Shifted σ after' →
      Follows σ g h after after' (f a) (f' (renumber σ.move a))) :
    Follows σ g h m m' (x >>= f) (y >>= f') := by
  unfold Follows at hx ⊢
  rw [result_bind, result_bind]
  split at hx
  · next a after b after' hleft hright =>
    obtain ⟨rfl, hafter⟩ := hx
    rw [hleft, hright]
    exact hf a after after' hafter
  · next hleft hright =>
    rw [hleft, hright]
    exact hx
  · exact hx.elim

/-! ### Arguments -/

theorem getElem?_renumber (ρ : NodeId → NodeId) (args : List Value) (position : Nat) :
    (renumber ρ args)[position]? = args[position]?.map (renumber ρ) :=
  List.getElem?_map ..

theorem follows_nodeAt (hs : g.Shifted σ h) (hm : m.Shifted σ m') (function : String)
    (args : List Value) (position : Nat) :
    Follows σ g h m m' (nodeAt function args position)
      (nodeAt function (renumber σ.move args) position) := by
  unfold Follows
  rw [result_nodeAt, result_nodeAt, getElem?_renumber]
  cases args[position]? with
  | none => exact rfl
  | some v =>
    cases v with
    | type id =>
      -- the shifted graph has the shifted node exactly if the first one has the node
      have hmoved : renumber σ.move (Value.type id) = .type (σ.move id) := rfl
      rw [Option.map_some, hmoved]
      dsimp only
      rw [hs.contains_move]
      by_cases hid : g.contains id
      · rw [if_pos hid, if_pos hid]
        exact ⟨rfl, hm⟩
      · rw [if_neg hid, if_neg hid]
        exact rfl
    | absent | bool | number | string => exact rfl

/-- The version among the arguments is a plain value. -/
theorem follows_versionOf_bind (function : String) (args : List Value)
    {f f' : Value → Call β}
    (hf : ∀ v, v.Plain → Follows σ g h m m' (f v) (f' v)) :
    Follows σ g h m m' (Versioning.versionOf function args >>= f)
      (Versioning.versionOf function (renumber σ.move args) >>= f') := by
  unfold Versioning.versionOf
  rw [getElem?_renumber]
  cases args[1]? with
  | none => exact rfl
  | some v =>
    cases v with
    | number x => exact hf (.number x) trivial
    | absent | bool | string | type => exact rfl

/-! ### Metadata -/

theorem follows_metadata? (hs : g.Shifted σ h) (hm : m.Shifted σ m') (key : Metadata.Key)
    (id : NodeId) :
    Follows σ g h m m' (metadata? key id) (metadata? key (σ.move id)) := by
  refine ⟨?_, hm⟩
  rw [hm.read?_move hs, hm.renumber_read?]

theorem follows_store (hm : m.Shifted σ m') (key : Metadata.Key) (id : NodeId) {v : Value}
    (hv : v.Plain) :
    Follows σ g h m m' (store key id v) (store key (σ.move id) v) :=
  ⟨rfl, hm.set key id hv⟩

end Host.Call

/-! ### The standard modules -/

namespace Host

open Call

variable {σ : Shift} {g h : Graph} {m m' : Metadata} {f : Function}

theorem Recorder.follows (hf : Recorder f) (hs : g.Shifted σ h) (hm : m.Shifted σ m')
    (args : List Value) : Follows σ g h m m' (f args) (f (renumber σ.move args)) := by
  cases hf with
  | text key =>
    refine (follows_nodeAt hs hm "doc" args 0).bind fun id _ _ hm => ?_
    dsimp only
    rw [getElem?_renumber]
    cases args[1]? with
    | none => exact rfl
    | some v =>
      cases v with
      | string text =>
        have hplain : (Value.string text).Plain := trivial
        exact (follows_store hm key id hplain).bind fun _ _ _ hm => .pure hm Value.absent
      | absent | bool | number | type => exact rfl
  | version function key =>
    refine (follows_nodeAt hs hm function args 0).bind fun id _ _ hm => ?_
    refine follows_versionOf_bind function args fun v hv => ?_
    exact (follows_store hm key id hv).bind fun _ _ _ hm => .pure hm Value.absent
  | rename keys =>
    refine (follows_nodeAt hs hm "renamedFrom" args 0).bind fun id _ _ hm => ?_
    refine follows_versionOf_bind "renamedFrom" args fun v hv => ?_
    dsimp only
    rw [getElem?_renumber]
    cases args[2]? with
    | none => exact rfl
    | some w =>
      cases w with
      | string oldName =>
        refine (follows_store hm keys.renamedFromVersion id hv).bind fun _ _ _ hm => ?_
        have hplain : (Value.string oldName).Plain := trivial
        refine (follows_store hm keys.renamedFromName id hplain).bind fun _ _ _ hm => ?_
        exact .pure hm Value.absent
      | absent | bool | number | type => exact rfl

theorem Reader.follows (hf : Reader f) (hs : g.Shifted σ h) (hm : m.Shifted σ m')
    (args : List Value) : Follows σ g h m m' (f args) (f (renumber σ.move args)) := by
  -- a default is plain, so it makes no difference which side it is taken on
  have hdefault : ∀ default : Value, default.Plain → ∀ found : Option Value,
      (renumber σ.move found).getD default = renumber σ.move (found.getD default) := by
    intro default hplain found
    cases found with
    | none => exact (hplain.renumber_eq σ.move).symm
    | some v => rfl
  cases hf with
  | text key =>
    refine (follows_nodeAt hs hm "getDoc" args 0).bind fun id _ _ hm => ?_
    refine (follows_metadata? hs hm key id).bind fun found _ _ hm => ?_
    rw [hdefault .absent trivial]
    exact .pure hm _
  | record function key default plain =>
    refine (follows_nodeAt hs hm function args 0).bind fun id _ _ hm => ?_
    refine (follows_metadata? hs hm key id).bind fun found _ _ hm => ?_
    rw [hdefault default plain]
    exact .pure hm _

/-- **The exports of the standard modules** do the same on both sides. -/
theorem Module.Standard.follows {module : Module} (hmodule : module.Standard) {sort : ExportSort}
    {name : String} (hexport : (name, f) ∈ module.exports sort) (hs : g.Shifted σ h)
    (hm : m.Shifted σ m') (args : List Value) :
    Call.Follows σ g h m m' (f args) (f (renumber σ.move args)) := by
  cases sort with
  | function => exact (hmodule.reader hexport).follows hs hm args
  | decorator => exact (hmodule.recorder hexport).follows hs hm args

end Host

end SchemaProjection
