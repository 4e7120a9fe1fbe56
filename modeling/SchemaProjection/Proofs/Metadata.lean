import SchemaProjection.Metadata

/-!
# Entries of metadata

What writing an entry and dropping the entries of released nodes do to the tables, told by the
entries under each key (`Metadata.entries_set`, `Metadata.entries_discardFrom`) and by the entry of
a single node (`Metadata.own?_set`, `Metadata.own?_discardFrom`). The entries of the first nodes
(`Metadata.before`) are what a release keeps; writing to a later node does not touch them
(`Metadata.before_set`).
-/

namespace SchemaProjection.Metadata

/-! ### Tables -/

namespace Table

theorem mem_insert {t : Table} {id : NodeId} {value : Value} {e : NodeId × Value}
    (h : e ∈ t.insert id value) : e = (id, value) ∨ e ∈ t := by
  induction t with
  | nil => exact .inl (List.mem_singleton.mp h)
  | cons head rest ih =>
    obtain ⟨i, v⟩ := head
    rw [insert] at h
    split at h
    · exact List.mem_cons.mp h
    split at h
    · rcases List.mem_cons.mp h with rfl | hrest
      · exact .inl rfl
      · exact .inr (List.mem_cons_of_mem _ hrest)
    · rcases List.mem_cons.mp h with rfl | hrest
      · exact .inr List.mem_cons_self
      · exact (ih hrest).imp_right (List.mem_cons_of_mem _)

/-- An entry of a later node does not show among those of earlier ones. -/
theorem filter_insert {t : Table} {id : NodeId} {value : Value} {n : Nat} (h : n ≤ id.index) :
    (t.insert id value).filter (·.1.index < n) = t.filter (·.1.index < n) := by
  have hout : decide (id.index < n) = false := decide_eq_false (Nat.not_lt.mpr h)
  induction t with
  | nil => simp [insert, hout]
  | cons head rest ih =>
    obtain ⟨i, v⟩ := head
    rw [insert]
    split
    · rw [List.filter_cons, hout]
      rfl
    split
    · next heq =>
      subst heq
      rw [List.filter_cons, List.filter_cons, hout]
      rfl
    · rw [List.filter_cons, List.filter_cons, ih]

theorem lookup_insert (t : Table) (id : NodeId) (value : Value) (other : NodeId) :
    (t.insert id value).lookup other = if other = id then some value else t.lookup other := by
  induction t with
  | nil =>
    rw [insert, List.lookup_cons, List.lookup_nil]
    by_cases h : other = id
    · rw [if_pos h, h, beq_self_eq_true]
    · rw [if_neg h, beq_false_of_ne h]
  | cons head rest ih =>
    obtain ⟨i, v⟩ := head
    rw [insert]
    by_cases h : other = id
    · subst h
      rw [if_pos rfl] at ih ⊢
      split
      · rw [List.lookup_cons, beq_self_eq_true]
      split
      · rw [List.lookup_cons, beq_self_eq_true]
      next hne =>
      rw [List.lookup_cons, beq_false_of_ne hne, ih]
    · rw [if_neg h] at ih ⊢
      split
      · rw [List.lookup_cons, beq_false_of_ne h]
      split
      · next heq => rw [List.lookup_cons, List.lookup_cons, heq, beq_false_of_ne (heq ▸ h)]
      · rw [List.lookup_cons, List.lookup_cons, ih]

/-- An entry is found in part of a table if its node is in that part. -/
theorem lookup_filter (t : Table) (keep : NodeId → Bool) (id : NodeId) :
    (t.filter (keep ·.1)).lookup id = if keep id then t.lookup id else none := by
  induction t with
  | nil => simp
  | cons head rest ih =>
    obtain ⟨i, v⟩ := head
    rw [List.filter_cons]
    by_cases h : id = i
    · subst h
      cases hkeep : keep id with
      | true => simp
      | false => simpa [hkeep] using ih
    · rw [List.lookup_cons, beq_false_of_ne h]
      split
      · rw [List.lookup_cons, beq_false_of_ne h, ih]
      · exact ih

end Table

/-! ### Keys -/

variable {m : Metadata} {key k : Key} {id : NodeId} {value : Value} {n : Nat}

private theorem lookup_replace_of_ne {table : Table} (hk : k ≠ key)
    (tables : List (Key × Table)) :
    (tables.map fun t => if t.1 = key then (key, table) else t).lookup k = tables.lookup k := by
  induction tables with
  | nil => rfl
  | cons head rest ih =>
    rw [List.map_cons, List.lookup_cons, List.lookup_cons, ih]
    by_cases hhead : head.1 = key
    · have hne : (k == head.1) = false := beq_false_of_ne (hhead ▸ hk)
      rw [if_pos hhead, hne, beq_false_of_ne hk]
    · rw [if_neg hhead]

private theorem lookup_replace_self {table : Table} {tables : List (Key × Table)}
    (hpresent : (tables.lookup key).isSome) :
    (tables.map fun t => if t.1 = key then (key, table) else t).lookup key = some table := by
  induction tables with
  | nil => cases hpresent
  | cons head rest ih =>
    rw [List.map_cons, List.lookup_cons]
    by_cases hhead : head.1 = key
    · simp [hhead]
    · have hne : (key == head.1) = false := beq_false_of_ne (Ne.symm hhead)
      rw [List.lookup_cons, hne] at hpresent
      rw [if_neg hhead, hne]
      exact ih hpresent

theorem entries_setTable (m : Metadata) (key : Key) (table : Table) (k : Key) :
    (m.setTable key table).entries k = if k = key then table else m.entries k := by
  unfold setTable entries
  split
  · next hpresent =>
    by_cases hk : k = key
    · rw [if_pos hk, hk, lookup_replace_self hpresent, Option.getD_some]
    · rw [if_neg hk, lookup_replace_of_ne hk]
  · next habsent =>
    rw [Bool.not_eq_true, Option.isSome_eq_false_iff, Option.isNone_iff_eq_none] at habsent
    rw [List.lookup_append]
    by_cases hk : k = key
    · simp [hk, habsent]
    · simp [hk, List.lookup_cons, beq_false_of_ne hk]

/-- Writing an entry changes the table of its key only. -/
theorem entries_set (m : Metadata) (key : Key) (id : NodeId) (value : Value) (k : Key) :
    (m.set key id value).entries k =
      if k = key then (m.entries key).insert id value else m.entries k :=
  entries_setTable m key _ k

theorem entries_delete (m : Metadata) (key : Key) (id : NodeId) (k : Key) :
    (m.delete key id).entries k =
      if k = key then (m.entries key).filter (·.1 ≠ id) else m.entries k :=
  entries_setTable m key _ k

/-! ### Single entries -/

/-- A written entry is found under its key at its node, and no other entry changes. -/
theorem own?_set (m : Metadata) (key : Key) (id : NodeId) (value : Value) (k : Key)
    (other : NodeId) :
    (m.set key id value).own? k other =
      if k = key ∧ other = id then some value else m.own? k other := by
  rw [own?, entries_set, own?]
  by_cases hk : k = key
  · subst hk
    simp only [true_and, if_true]
    exact Table.lookup_insert _ id value other
  · rw [if_neg hk, if_neg fun h => hk h.1]

/-- Entries under other keys do not change. -/
theorem own?_set_of_ne (hk : k ≠ key) (id : NodeId) (value : Value) (other : NodeId) :
    (m.set key id value).own? k other = m.own? k other := by
  rw [own?_set, if_neg fun h => hk h.1]

/-- Deleting an entry adds none. -/
theorem own?_of_own?_delete {other : NodeId} (h : (m.delete key id).own? k other = some value) :
    m.own? k other = some value := by
  rw [own?, entries_delete] at h
  split at h
  · next heq =>
    have hfilter := Table.lookup_filter (m.entries key) (fun i => decide (i ≠ id)) other
    rw [hfilter] at h
    split at h
    · rw [own?, heq]
      exact h
    · cases h
  · exact h

theorem own?_delete_of_ne (hk : k ≠ key) (other : NodeId) :
    (m.delete key id).own? k other = m.own? k other := by
  rw [own?, entries_delete, if_neg hk, own?]

/-! ### The entries of the first nodes -/

/-- The entries of the nodes before a position. -/
def before (m : Metadata) (n : Nat) (key : Key) : Table := (m.entries key).filter (·.1.index < n)

/-- **A release keeps the entries of the first nodes.** -/
theorem entries_discardFrom (m : Metadata) (n : Nat) (key : Key) :
    (m.discardFrom n).entries key = m.before n key := by
  obtain ⟨tables⟩ := m
  simp only [discardFrom, entries, before]
  induction tables with
  | nil => rfl
  | cons head rest ih =>
    rw [List.map_cons, List.lookup_cons, List.lookup_cons]
    cases key == head.1 with
    | true => rfl
    | false => exact ih

theorem lookup_before (m : Metadata) (n : Nat) (key : Key) (id : NodeId) :
    (m.before n key).lookup id = if id.index < n then m.own? key id else none := by
  have hfilter := Table.lookup_filter (m.entries key) (fun i => decide (i.index < n)) id
  rw [before, hfilter, own?]
  simp only [decide_eq_true_eq]

/-- A release keeps exactly the entries of the nodes before the position. -/
theorem own?_discardFrom (m : Metadata) (n : Nat) (key : Key) (id : NodeId) :
    (m.discardFrom n).own? key id = if id.index < n then m.own? key id else none := by
  rw [own?, entries_discardFrom, lookup_before]

/-- Writing to a node does not touch the entries of earlier ones. -/
theorem before_set (m : Metadata) (key : Key) {id : NodeId} (value : Value) (h : n ≤ id.index)
    (k : Key) : (m.set key id value).before n k = m.before n k := by
  rw [before, entries_set]
  by_cases hk : k = key
  · rw [if_pos hk, Table.filter_insert h, hk, before]
  · rw [if_neg hk, before]

/-- All entries belong to the nodes before a position. -/
def Within (m : Metadata) (n : Nat) : Prop := ∀ key, ∀ e ∈ m.entries key, e.1.index < n

theorem within_empty (n : Nat) : Within .empty n := by
  intro key e he
  cases he

theorem Within.mono (h : m.Within n) {k : Nat} (hle : n ≤ k) : m.Within k :=
  fun key e he => Nat.lt_of_lt_of_le (h key e he) hle

theorem Within.set (h : m.Within n) (key : Key) {id : NodeId} (value : Value) (hid : id.index < n) :
    (m.set key id value).Within n := by
  intro k e he
  rw [entries_set] at he
  split at he
  · rcases Table.mem_insert he with rfl | hold
    · exact hid
    · exact h key e hold
  · exact h k e he

theorem Within.delete (h : m.Within n) (key : Key) (id : NodeId) : (m.delete key id).Within n := by
  intro k e he
  rw [entries_delete] at he
  split at he
  · exact h key e (List.mem_filter.mp he).1
  · exact h k e he

theorem within_discardFrom (m : Metadata) (n : Nat) : (m.discardFrom n).Within n := by
  intro key e he
  rw [entries_discardFrom, before, List.mem_filter] at he
  exact of_decide_eq_true he.2

/-- Nothing else is there than the entries of the first nodes. -/
theorem Within.before_eq (h : m.Within n) (key : Key) : m.before n key = m.entries key :=
  List.filter_eq_self.mpr fun e he => decide_eq_true (h key e he)

/-- There are no entries behind the position. -/
theorem Within.own?_eq_none (h : m.Within n) (key : Key) (hid : n ≤ id.index) :
    m.own? key id = none := by
  have hlookup := m.lookup_before n key id
  rw [h.before_eq, if_neg (Nat.not_lt.mpr hid)] at hlookup
  exact hlookup

end SchemaProjection.Metadata
