import Mathlib.Data.List.Nodup
import SchemaProjection.Proofs.Graph.Derivation

/-!
# Edited tables

What the operations on a table of names do to its entries. The names of a table are distinct, so
looking a name up and finding an entry of that name are the same (`NameTable.get?_iff`), and an
entry is told by its name alone (`NameTable.eq_of_mem_entries`).

Each operation is described on the list of entries, under the condition that an edit checks before:
a new name goes to the end (`NameTable.entries_insert`), a renamed entry keeps its place
(`NameTable.entries_rename`).
-/

namespace SchemaProjection.NameTable

variable {t : NameTable} {name other : String} {id : NodeId}

/-! ### Looking up -/

theorem contains_iff : t.contains name ↔ name ∈ t.keys := by
  rw [contains, List.contains_iff_mem]

theorem not_mem_keys (h : t.contains name = false) : name ∉ t.keys := by
  intro hmem
  rw [contains_iff.mpr hmem] at h
  cases h

theorem mem_keys_of_mem {e : String × NodeId} (h : e ∈ t.entries) : e.1 ∈ t.keys :=
  List.mem_map.mpr ⟨e, h, rfl⟩

/-- **Two entries of one name are the same entry.** -/
theorem eq_of_mem_entries {e e' : String × NodeId} (he : e ∈ t.entries) (he' : e' ∈ t.entries)
    (hname : e.1 = e'.1) : e = e' :=
  List.inj_on_of_nodup_map t.nodup_keys he he' hname

/-- **A name is assigned to a node** if there is an entry that says so. -/
theorem get?_iff : t.get? name = some id ↔ (name, id) ∈ t.entries := by
  constructor
  · intro h
    obtain ⟨front, back, hentries, -⟩ := List.lookup_eq_some_iff.mp h
    rw [hentries]
    exact List.mem_append_right _ List.mem_cons_self
  · intro h
    -- some entry of the name is found, and there is only this one
    cases hfound : t.get? name with
    | none =>
      have hne := List.lookup_eq_none_iff.mp hfound _ h
      rw [bne_self_eq_false] at hne
      cases hne
    | some found =>
      obtain ⟨front, back, hentries, -⟩ := List.lookup_eq_some_iff.mp hfound
      have hmem : (name, found) ∈ t.entries := by
        rw [hentries]
        exact List.mem_append_right _ List.mem_cons_self
      have hsame : (name, found) = (name, id) := eq_of_mem_entries hmem h rfl
      rw [(Prod.mk.inj hsame).2]

theorem contains_of_get? (h : t.get? name = some id) : t.contains name :=
  contains_iff.mpr (mem_keys_of_mem (get?_iff.mp h))

theorem contains_of_get?_none (h : t.get? name = none) : t.contains name = false := by
  refine Bool.eq_false_iff.mpr fun hname => ?_
  obtain ⟨e, he, rfl⟩ := List.mem_map.mp (contains_iff.mp hname)
  have hfound : t.get? e.1 = some e.2 := get?_iff.mpr he
  rw [h] at hfound
  cases hfound

/-- A name is looked up in its own entries. -/
theorem get?_congr {s : NameTable} (h : ∀ id, (name, id) ∈ s.entries ↔ (name, id) ∈ t.entries) :
    s.get? name = t.get? name :=
  Option.ext fun id => get?_iff.trans ((h id).trans get?_iff.symm)

theorem contains_eq_isSome (t : NameTable) (name : String) :
    t.contains name = (t.get? name).isSome := by
  cases h : t.get? name with
  | none => exact contains_of_get?_none h
  | some id => exact contains_of_get? h

/-! ### Operations -/

theorem entries_replace (t : NameTable) (name : String) (id : NodeId) :
    (t.replace name id).entries = t.entries.map fun e => if e.1 = name then (name, id) else e := rfl

theorem get?_replace (h : t.contains name) : (t.replace name id).get? name = some id := by
  obtain ⟨e, he, hname⟩ := List.mem_map.mp (contains_iff.mp h)
  refine get?_iff.mpr (List.mem_map.mpr ⟨e, he, ?_⟩)
  exact if_pos hname

theorem mem_replace {e : String × NodeId} (h : e ∈ (t.replace name id).entries) :
    (e = (name, id) ∧ name ∈ t.keys) ∨ (e ∈ t.entries ∧ e.1 ≠ name) := by
  rw [entries_replace] at h
  obtain ⟨e', he', rfl⟩ := List.mem_map.mp h
  by_cases hname : e'.1 = name
  · rw [if_pos hname]
    exact .inl ⟨rfl, hname ▸ mem_keys_of_mem he'⟩
  · rw [if_neg hname]
    exact .inr ⟨he', hname⟩

theorem get?_replace_of_ne (h : other ≠ name) : (t.replace name id).get? other = t.get? other := by
  refine get?_congr fun found => ⟨fun hfound => ?_, fun hfound => ?_⟩
  · rcases mem_replace hfound with ⟨heq, -⟩ | ⟨hold, -⟩
    · exact absurd (congrArg Prod.fst heq) h
    · exact hold
  · exact List.mem_map.mpr ⟨_, hfound, if_neg h⟩

/-- A new name goes to the end. -/
theorem entries_insert (h : t.contains name = false) :
    (t.insert name id).entries = t.entries ++ [(name, id)] := by
  rw [insert, dif_neg (not_mem_keys h)]

theorem entries_erase (t : NameTable) (name : String) :
    (t.erase name).entries = t.entries.filter fun e => e.1 ≠ name := rfl

/-- A list of entries with distinct names is the list of entries of its table. -/
theorem entries_ofList {entries : List (String × NodeId)}
    (h : (entries.map Prod.fst).Nodup) : (ofList entries).entries = entries := by
  -- the entries are inserted one by one, each of them new
  have hfold : ∀ (rest : List (String × NodeId)) (t : NameTable),
      ((t.entries ++ rest).map Prod.fst).Nodup →
        (rest.foldl (fun t e => t.insert e.1 e.2) t).entries = t.entries ++ rest := by
    intro rest
    induction rest with
    | nil => exact fun t _ => (List.append_nil _).symm
    | cons e rest ih =>
      intro t hnodup
      have hnew : t.contains e.1 = false := by
        rw [← Bool.not_eq_true, contains_iff]
        intro hmem
        rw [List.map_append, List.map_cons, List.nodup_append] at hnodup
        exact hnodup.2.2 e.1 hmem e.1 List.mem_cons_self rfl
      have hentries : (t.insert e.1 e.2).entries = t.entries ++ [e] := entries_insert hnew
      rw [List.append_cons, ← hentries] at hnodup
      rw [List.foldl_cons, ih (t.insert e.1 e.2) hnodup, hentries, ← List.append_cons]
  exact hfold entries .empty h

theorem nodup_renamed (hfree : t.contains other = false) :
    ((t.entries.map fun e => if e.1 = name then (other, id) else e).map Prod.fst).Nodup := by
  have hkeys : (t.entries.map fun e => if e.1 = name then (other, id) else e).map Prod.fst =
      t.keys.map fun key => if key = name then other else key := by
    rw [keys, List.map_map, List.map_map]
    refine List.map_congr_left fun e _ => ?_
    by_cases h : e.1 = name <;> simp [h]
  rw [hkeys]
  refine List.Nodup.map_on (fun a ha b hb hab => ?_) t.nodup_keys
  -- the new name differs from all others, so no two names become one
  have hne : ∀ key ∈ t.keys, key ≠ other := fun key hkey heq => not_mem_keys hfree (heq ▸ hkey)
  by_cases haname : a = name <;> by_cases hbname : b = name
  · rw [haname, hbname]
  · rw [if_pos haname, if_neg hbname] at hab
    exact absurd hab.symm (hne b hb)
  · rw [if_neg haname, if_pos hbname] at hab
    exact absurd hab (hne a ha)
  · rw [if_neg haname, if_neg hbname] at hab
    exact hab

/-- **A renamed entry keeps its place**, if the new name is free. -/
theorem entries_rename (hfree : t.contains other = false) :
    (t.rename name other id).entries =
      t.entries.map fun e => if e.1 = name then (other, id) else e :=
  entries_ofList (nodup_renamed hfree)

theorem mem_rename (hfree : t.contains other = false) {e : String × NodeId}
    (h : e ∈ (t.rename name other id).entries) :
    (e = (other, id) ∧ name ∈ t.keys) ∨ (e ∈ t.entries ∧ e.1 ≠ name) := by
  rw [entries_rename hfree] at h
  obtain ⟨e', he', rfl⟩ := List.mem_map.mp h
  by_cases hname : e'.1 = name
  · rw [if_pos hname]
    exact .inl ⟨rfl, hname ▸ mem_keys_of_mem he'⟩
  · rw [if_neg hname]
    exact .inr ⟨he', hname⟩

end SchemaProjection.NameTable
