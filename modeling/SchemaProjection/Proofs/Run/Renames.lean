import SchemaProjection.Proofs.Host.Versioning
import SchemaProjection.Proofs.Run.Decorations

/-!
# Renames on record

The decorator `renamedFrom` of the module `versioning` writes under two keys, the version under one
and the old name under the other. It writes both or none, since it looks at all arguments first
(`Host.Versioning.recordRename_cases`). If nobody else writes under the two keys
(`Host.Versioning.Respects`), both are told by one log of decorations
(`Host.Versioning.RecordsRenames`), and so the entries stay paired. A run keeps it this way
(`Host.Versioning.RecordsRenames.decorates`), and so does the release of nodes
(`Host.Versioning.RecordsRenames.release`).
-/

namespace SchemaProjection

/-- **A rename**: a node of the graph is given a version and an old name. -/
def Decoration.IsRename (g : Graph) (d : Decoration) : Prop :=
  ∃ id version oldName rest, g.contains id ∧
    d.args = .type id :: .number version :: .string oldName :: rest

namespace Host

variable {f : Function} {args : List Value} {g : Graph} {m after : Metadata}

/-- What a call adds to a log is the call of a decorator. -/
theorem mem_ofCall {sort : ExportSort} {name : String} {d : Decoration}
    (h : d ∈ Decoration.ofCall sort name f args g m) : sort = .decorator ∧ d.name = name := by
  unfold Decoration.ofCall at h
  split at h
  · cases List.mem_singleton.mp h
    exact ⟨rfl, rfl⟩
  · cases h

namespace Versioning

variable {keys : Keys} {log : List Decoration}

/-! ### Who writes -/

/-- The keys that renames are recorded under. -/
def Keys.renames (keys : Keys) : List Metadata.Key :=
  [keys.renamedFromVersion, keys.renamedFromName]

/-- A function leaves the records of renames alone. -/
def Spares (keys : Keys) (f : Function) : Prop :=
  ∀ args g m, ∀ key ∈ keys.renames, ∀ id, (f.metadataAfter args g m).own? key id = m.own? key id

/-- **Another module**: it has none of the exports that are about renames, and leaves the records of
them alone. -/
structure Apart (keys : Keys) (m : Module) : Prop where
  decorator : m.decorator? "renamedFrom" = none
  version : m.function? "getRenamedFromVersion" = none
  oldName : m.function? "getRenamedFromOldName" = none
  spares : ∀ sort, ∀ e ∈ m.exports sort, Spares keys e.2

/-- A module is the instance of `versioning`, or another one. -/
def Respects (keys : Keys) (m : Module) : Prop := m = module keys ∨ Apart keys m

theorem Keys.Distinct.renames_ne (hkeys : keys.Distinct) :
    keys.addedOn ∉ keys.renames ∧ keys.removedOn ∉ keys.renames ∧
      keys.renamedFromVersion ≠ keys.renamedFromName := by
  simp only [Keys.Distinct, List.nodup_cons, List.mem_cons, List.not_mem_nil, or_false] at hkeys
  simp only [Keys.renames, List.mem_cons, List.not_mem_nil, or_false]
  grind

/-- A decorator that records a version under another key. -/
theorem spares_recordVersion (function : String) {key : Metadata.Key} (hkey : key ∉ keys.renames) :
    Spares keys (recordVersion function key) := by
  intro args g m
  refine Call.Leaves.metadataAfter
    (P := fun after => ∀ k ∈ keys.renames, ∀ id, after.own? k id = m.own? k id) ?_
  have hnone : ∀ k ∈ keys.renames, ∀ id, m.own? k id = m.own? k id := fun _ _ _ => rfl
  refine Call.leaves_nodeAt_bind hnone fun node _ _ => leaves_versionOf_bind hnone fun x => ?_
  exact fun k hk => Metadata.own?_set_of_ne (ne_of_mem_of_not_mem hk hkey) node (.number x)

/-- The module `doc`, over a key of its own, is another module. -/
theorem apart_doc {key : Metadata.Key} (hkey : key ∉ keys.renames) :
    Apart keys (Doc.module key) where
  decorator := rfl
  version := rfl
  oldName := rfl
  spares sort e he args g m := by
    cases sort with
    | function =>
      have hreader : Reader e.2 := Module.Standard.reader (.inl ⟨key, rfl⟩) he
      rw [hreader.metadataAfter]
      exact fun _ _ _ => rfl
    | decorator =>
      cases List.mem_singleton.mp he
      refine Call.Leaves.metadataAfter
        (P := fun after => ∀ k ∈ keys.renames, ∀ id, after.own? k id = m.own? k id) ?_
      have hnone : ∀ k ∈ keys.renames, ∀ id, m.own? k id = m.own? k id := fun _ _ _ => rfl
      refine Call.leaves_nodeAt_bind hnone fun node _ _ => ?_
      dsimp only
      split
      · next text _ =>
        exact fun k hk => Metadata.own?_set_of_ne (ne_of_mem_of_not_mem hk hkey) node (.string text)
      · exact hnone
      · exact hnone

/-- **What is found among the modules** is the decorator for renames, or leaves their records
alone. -/
theorem rename_or_spares_of_find? (hkeys : keys.Distinct) {modules : List Module}
    (hmodules : ∀ m ∈ modules, Respects keys m) {sort : ExportSort} {name : String}
    (hfound : find? modules sort name = some f) :
    (sort = .decorator ∧ name = "renamedFrom" ∧ f = recordRename keys) ∨
      (sort = .decorator → name ≠ "renamedFrom") ∧ Spares keys f := by
  obtain ⟨m, hm, hexport⟩ := List.exists_of_findSome?_eq_some hfound
  obtain ⟨hadded, hremoved, -⟩ := hkeys.renames_ne
  rcases hmodules m (List.mem_reverse.mp hm) with rfl | hapart
  · cases sort with
    | function =>
      have hreader : Reader f :=
        Module.Standard.reader (.inr ⟨keys, rfl⟩) (Module.mem_of_export? hexport)
      refine .inr ⟨nofun, fun args g m key _ id => ?_⟩
      rw [hreader.metadataAfter]
    | decorator =>
      have hmem : (name, f) ∈ [("added", recordVersion "added" keys.addedOn),
          ("removed", recordVersion "removed" keys.removedOn),
          ("renamedFrom", recordRename keys)] := Module.mem_of_export? hexport
      cases hmem with
      | head => exact .inr ⟨fun _ => by decide, spares_recordVersion _ hadded⟩
      | tail _ hmem =>
        cases hmem with
        | head => exact .inr ⟨fun _ => by decide, spares_recordVersion _ hremoved⟩
        | tail _ hmem =>
          cases List.mem_singleton.mp hmem
          exact .inl ⟨rfl, rfl, rfl⟩
  · refine .inr ⟨fun hsort hname => ?_, hapart.spares sort _ (Module.mem_of_export? hexport)⟩
    subst hsort hname
    exact nomatch hexport.symm.trans hapart.decorator

/-- A function that only one of the modules exports is found. -/
theorem find?_of_mem {modules : List Module} {m : Module} {function : String} (hm : m ∈ modules)
    (hexport : m.function? function = some f)
    (hothers : ∀ other ∈ modules, other = m ∨ other.function? function = none) :
    find? modules .function function = some f := by
  cases hfound : find? modules .function function with
  | none =>
    have hnone : m.function? function = none :=
      List.findSome?_eq_none_iff.mp hfound m (List.mem_reverse.mpr hm)
    exact nomatch hexport.symm.trans hnone
  | some f' =>
    obtain ⟨other, hother, hfunction⟩ := List.exists_of_findSome?_eq_some hfound
    rcases hothers other (List.mem_reverse.mp hother) with rfl | hnone
    · exact hfunction.symm.trans hexport
    · exact nomatch hnone.symm.trans hfunction

/-- **The decorator for renames writes both entries**, or it fails and writes none. -/
theorem recordRename_cases (keys : Keys) (args : List Value) (g : Graph) (m : Metadata) :
    (∃ id version oldName rest, g.contains id ∧
      args = .type id :: .number version :: .string oldName :: rest ∧
      (recordRename keys args).result g m = .ok .absent
        ((m.set keys.renamedFromVersion id (.number version)).set keys.renamedFromName id
          (.string oldName))) ∨
    ∃ fault, (recordRename keys args).result g m = .error fault m := by
  rw [recordRename, Call.result_bind, Call.result_nodeAt]
  cases args with
  | nil => exact .inr ⟨_, rfl⟩
  | cons first rest =>
    cases first with
    | absent | bool | number | string => exact .inr ⟨_, rfl⟩
    | type id =>
      dsimp only [List.getElem?_cons_zero]
      by_cases hid : g.contains id
      · rw [if_pos hid]
        dsimp only
        rw [Call.result_bind, versionOf]
        cases rest with
        | nil => exact .inr ⟨_, rfl⟩
        | cons second rest =>
          cases second with
          | absent | bool | string | type => exact .inr ⟨_, rfl⟩
          | number version =>
            cases rest with
            | nil => exact .inr ⟨_, rfl⟩
            | cons third rest =>
              cases third with
              | absent | bool | number | type => exact .inr ⟨_, rfl⟩
              | string oldName => exact .inl ⟨id, version, oldName, rest, hid, rfl, rfl⟩
      · rw [if_neg hid]
        exact .inr ⟨_, rfl⟩

/-! ### What is on record -/

/-- **The renames in a log are on record.** -/
structure RecordsRenames (keys : Keys) (log : List Decoration) (g : Graph) (m : Metadata) :
    Prop where
  version : m.Tells keys.renamedFromVersion log "renamedFrom" 1
  oldName : m.Tells keys.renamedFromName log "renamedFrom" 2
  renames : ∀ d ∈ log, d.name = "renamedFrom" → d.IsRename g

namespace RecordsRenames

theorem empty (keys : Keys) (g : Graph) : RecordsRenames keys [] g .empty :=
  ⟨fun _ => rfl, fun _ => rfl, fun _ h => nomatch h⟩

/-- **The entries are paired.** -/
theorem isSome_eq (h : RecordsRenames keys log g m) (id : NodeId) :
    (m.own? keys.renamedFromVersion id).isSome = (m.own? keys.renamedFromName id).isSome := by
  rw [h.version id, h.oldName id]
  cases hlast : Decoration.last? log "renamedFrom" id with
  | none => rfl
  | some d =>
    obtain ⟨hd, hname, -⟩ := Decoration.of_last?_eq_some hlast
    obtain ⟨_, _, _, _, -, hargs⟩ := h.renames d hd hname
    rw [Option.bind_some, Option.bind_some, hargs]
    rfl

/-- Nodes out of the graph have no entries. -/
theorem own?_of_not_contains (h : RecordsRenames keys log g m) {key : Metadata.Key}
    (hkey : key ∈ keys.renames) {id : NodeId} (hid : ¬ g.contains id) : m.own? key id = none := by
  have hlast : Decoration.last? log "renamedFrom" id = none := by
    refine Option.eq_none_iff_forall_ne_some.mpr fun d hd => ?_
    obtain ⟨hmem, hname, htarget⟩ := Decoration.of_last?_eq_some hd
    obtain ⟨node, _, _, _, hnode, hargs⟩ := h.renames d hmem hname
    rw [Decoration.target?, hargs] at htarget
    cases htarget
    exact hid hnode
  rcases List.mem_pair.mp hkey with rfl | rfl
  · rw [h.version id, hlast, Option.bind_none]
  · rw [h.oldName id, hlast, Option.bind_none]

/-- **A call of an export** keeps the renames on record, with itself in the log. -/
theorem call (h : RecordsRenames keys log g m) (hkeys : keys.Distinct) {modules : List Module}
    (hmodules : ∀ m ∈ modules, Respects keys m) {sort : ExportSort} {name : String}
    (hfound : find? modules sort name = some f) (args : List Value) :
    RecordsRenames keys (log ++ Decoration.ofCall sort name f args g m) g
      (f.metadataAfter args g m) := by
  rcases rename_or_spares_of_find? hkeys hmodules hfound with ⟨rfl, rfl, rfl⟩ | ⟨hname, hspares⟩
  · rcases recordRename_cases keys args g m with
      ⟨id, version, oldName, rest, hid, hargs, hok⟩ | ⟨fault, herror⟩
    · obtain ⟨-, -, hne⟩ := hkeys.renames_ne
      rw [metadataAfter_of_ok hok]
      unfold Decoration.ofCall
      rw [hok]
      subst hargs
      refine ⟨h.version.record (fun other => ?_) rfl rfl rfl,
        h.oldName.record (fun other => ?_) rfl rfl rfl, fun d hd hname => ?_⟩
      · -- the version is written under the first key, and stays when the name is written
        rw [Metadata.own?_set, if_neg fun heq => hne heq.1, Metadata.own?_set]
        simp only [true_and]
      · have hfirst : ¬ (keys.renamedFromName = keys.renamedFromVersion ∧ other = id) :=
          fun heq => hne heq.1.symm
        rw [Metadata.own?_set, Metadata.own?_set, if_neg hfirst]
        simp only [true_and]
      · rcases List.mem_append.mp hd with hold | hnew
        · exact h.renames d hold hname
        · cases List.mem_singleton.mp hnew
          exact ⟨id, version, oldName, rest, hid, rfl⟩
    · rw [metadataAfter_of_error herror]
      unfold Decoration.ofCall
      rw [herror]
      dsimp only
      rw [List.append_nil]
      exact h
  · have hadded : ∀ d ∈ Decoration.ofCall sort name f args g m, d.name ≠ "renamedFrom" := by
      intro d hd
      obtain ⟨hsort, heq⟩ := mem_ofCall hd
      exact heq ▸ hname hsort
    refine ⟨h.version.of_own? (hspares args g m _ (.head _)) hadded,
      h.oldName.of_own? (hspares args g m _ (.tail _ (.head _))) hadded, fun d hd hrename => ?_⟩
    rcases List.mem_append.mp hd with hold | hnew
    · exact h.renames d hold hrename
    · exact absurd hrename (hadded d hnew)

/-- **When the graph changes**, the renames of its nodes stay on record, if their entries do and
others are dropped. -/
theorem kept (h : RecordsRenames keys log g m) {g' : Graph}
    (hkept : ∀ key ∈ keys.renames, ∀ id,
      after.own? key id = if g'.contains id then m.own? key id else none) :
    RecordsRenames keys (log.filter (Decoration.isIn g')) g' after where
  version := h.version.kept (hkept _ (.head _))
  oldName := h.oldName.kept (hkept _ (.tail _ (.head _)))
  renames d hd hname := by
    obtain ⟨hmem, hin⟩ := List.mem_filter.mp hd
    obtain ⟨id, version, oldName, rest, -, hargs⟩ := h.renames d hmem hname
    rw [Decoration.isIn, Decoration.target?, hargs] at hin
    exact ⟨id, version, oldName, rest, hin, hargs⟩

/-- A graph that grows keeps them all. -/
theorem grown (h : RecordsRenames keys log g m) {g' : Graph} (hsize : g.size ≤ g'.size)
    (hsame : ∀ key ∈ keys.renames, ∀ id, after.own? key id = m.own? key id) :
    RecordsRenames keys (log.filter (Decoration.isIn g')) g' after := by
  refine h.kept fun key hkey id => ?_
  rw [hsame key hkey id]
  split
  · rfl
  · next hid => exact h.own?_of_not_contains hkey (mt (Graph.contains_of_size_le hsize) hid)

/-- **A release** keeps those of the nodes that are left. -/
theorem release {run : Run} (h : RecordsRenames keys log run.graph run.metadata) (size : Nat) :
    RecordsRenames keys (log.filter (Decoration.isIn (run.release size).graph))
      (run.release size).graph (run.release size).metadata := by
  unfold Run.release
  split
  · next hsize =>
    refine h.kept fun key _ id => ?_
    have hcontains : (run.graph.truncate size).contains id ↔ id.index < size := by
      rw [Graph.contains_iff, Graph.size_truncate, Nat.min_eq_left (Nat.le_of_lt hsize)]
    rw [Metadata.own?_discardFrom]
    simp only [hcontains]
  · exact h.grown (Nat.le_refl _) fun _ _ _ => rfl

/-- **A run keeps the renames on record**, with its decorations in the log. -/
theorem decorates {setting : Setting} (hkeys : keys.Distinct)
    (hmodules : ∀ m ∈ setting.hosts, Respects keys m) {r s : Run} {added : List Decoration}
    (hrun : Run.Decorates setting r added s) (h : RecordsRenames keys log r.graph r.metadata) :
    RecordsRenames keys (log ++ added) s.graph s.metadata := by
  induction hrun with
  | refl =>
    rw [List.append_nil]
    exact h
  | @move added s t _ hlast ih =>
    obtain ⟨hle, hmetadata⟩ := hlast.of_no_hosts
    rw [hmetadata]
    refine ⟨ih.version, ih.oldName, fun d hd hname => ?_⟩
    obtain ⟨id, version, oldName, rest, hid, hargs⟩ := ih.renames d hd hname
    exact ⟨id, version, oldName, rest, Graph.contains_of_le hle hid, hargs⟩
  | call _ visible sort name f args found target ih =>
    rw [← List.append_assoc]
    exact ih.call hkeys (fun m hm => hmodules m (List.mem_of_mem_take hm)) found args

/-! ### What is read -/

/-- **Both entries are read off one rename**, the last one of the nearest node that has any. -/
theorem read? (h : RecordsRenames keys log g m) (id : NodeId) :
    m.read? g keys.renamedFromVersion id =
        (Decoration.nearest? log "renamedFrom" g id).bind (·.args[1]?) ∧
      m.read? g keys.renamedFromName id =
        (Decoration.nearest? log "renamedFrom" g id).bind (·.args[2]?) := by
  have hargs : ∀ d ∈ log, d.name = "renamedFrom" → d.args[1]?.isSome ∧ d.args[2]?.isSome := by
    intro d hd hname
    obtain ⟨_, _, _, _, -, hargs⟩ := h.renames d hd hname
    rw [hargs]
    exact ⟨rfl, rfl⟩
  exact ⟨h.version.read? (fun d hd hname => (hargs d hd hname).1) g id,
    h.oldName.read? (fun d hd hname => (hargs d hd hname).2) g id⟩

end RecordsRenames

end Versioning

end Host

end SchemaProjection
