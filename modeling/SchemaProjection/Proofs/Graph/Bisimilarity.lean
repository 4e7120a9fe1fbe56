import Mathlib.Algebra.BigOperators.Fin
import Mathlib.Algebra.Order.BigOperators.Group.Finset
import Mathlib.Logic.Relation
import SchemaProjection.Graph.Equality
import SchemaProjection.Proofs.Graph.Extension

/-!
# Structural equality is bisimilarity

A relation on nodes is a **bisimulation** if related nodes are the same node or have shapes that
differ only in what they refer to, and refer to related nodes in the same places
(`Graph.Bisimulation`). Two nodes are **bisimilar** if some bisimulation relates them. The search of
`Graph.agree` decides this relation:

* *soundness* — while it runs, every assumed pair has matching shapes whose children are equal,
  assumed, or still to be compared (`Graph.Justified`). When nothing is left to compare, the
  assumed pairs are a bisimulation (`bisimilar_of_agree`);
* *completeness* — pairs of a bisimulation lead to pairs of it only, and none of them is told apart
  (`agree_ne_false`);
* *termination* — each pair of nodes is assumed once, and adds at most as many pairs as its first
  node has references (`Graph.pending`). So the search comes to a verdict on any two nodes, be they
  equal or not (`agree_isSome`).
-/

namespace SchemaProjection

variable {R S : NodeId → NodeId → Prop}

/-! ### Shapes that agree up to their references -/

/-- Two tables with the same names in the same order and related nodes under each name. -/
structure NameTable.Alike (R : NodeId → NodeId → Prop) (s t : NameTable) : Prop where
  keys : s.keys = t.keys
  values : List.Forall₂ R s.values t.values

/-- **Two shapes that agree up to their references.** They are of one kind, carry the same name,
flag, value, literal or intrinsic, have the same number of members or elements under the same names
in the same order, and refer to related nodes in the same places. -/
inductive Shape.Alike (R : NodeId → NodeId → Prop) : Shape → Shape → Prop
  | model {name s t} : s.Alike R t → Alike R (.model name s) (.model name t)
  | union {name s t} : s.Alike R t → Alike R (.union name s) (.union name t)
  | interface {name s t} : s.Alike R t → Alike R (.interface name s) (.interface name t)
  | enum {name s t} : s.Alike R t → Alike R (.enum name s) (.enum name t)
  | modelProperty {name optional a b} :
    R a b → Alike R (.modelProperty name a optional) (.modelProperty name b optional)
  | unionVariant {name a b} : R a b → Alike R (.unionVariant name a) (.unionVariant name b)
  | operation {name p q a b} :
    R p q → R a b → Alike R (.operation name p a) (.operation name q b)
  | enumMember {name value} : Alike R (.enumMember name value) (.enumMember name value)
  | scalar {name a b} : Option.Rel R a b → Alike R (.scalar name a) (.scalar name b)
  | intrinsic {i} : Alike R (.intrinsic i) (.intrinsic i)
  | stringLiteral {s} : Alike R (.stringLiteral s) (.stringLiteral s)
  | numericLiteral {x} : Alike R (.numericLiteral x) (.numericLiteral x)
  | booleanLiteral {b} : Alike R (.booleanLiteral b) (.booleanLiteral b)
  | tuple {as bs} : List.Forall₂ R as bs → Alike R (.tuple as) (.tuple bs)

/-- Related lists compose item by item. -/
private theorem forall₂_comp {as bs cs : List NodeId} (h : List.Forall₂ R as bs)
    (h' : List.Forall₂ S bs cs) : List.Forall₂ (Relation.Comp R S) as cs := by
  induction h generalizing cs with
  | nil =>
    cases h'
    exact .nil
  | cons hab _ ih =>
    cases h' with
    | cons hbc hrest => exact .cons ⟨_, hab, hbc⟩ (ih hrest)

namespace NameTable

theorem Alike.mono {s t : NameTable} (hRS : ∀ a b, R a b → S a b) (h : s.Alike R t) :
    s.Alike S t :=
  ⟨h.keys, h.values.imp hRS⟩

theorem Alike.swap {s t : NameTable} (h : s.Alike R t) : t.Alike (flip R) s :=
  ⟨h.keys.symm, h.values.flip⟩

theorem Alike.comp {s t u : NameTable} (h : s.Alike R t) (h' : t.Alike S u) :
    s.Alike (Relation.Comp R S) u :=
  ⟨h.keys.trans h'.keys, forall₂_comp h.values h'.values⟩

theorem Alike.pairs? {s t : NameTable} (h : s.Alike R t) :
    s.pairs? t = some (s.values.zip t.values) :=
  if_pos h.keys

/-- Tables whose nodes can be paired are alike by the pairs. -/
theorem alike_of_pairs? {s t : NameTable} {pairs : List (NodeId × NodeId)}
    (h : s.pairs? t = some pairs) :
    s.Alike (fun a b => (a, b) ∈ pairs) t ∧ pairs = s.values.zip t.values := by
  rw [NameTable.pairs?] at h
  split at h
  · next hkeys =>
    have hlength : s.values.length = t.values.length := by
      simpa [keys, values] using congrArg List.length hkeys
    cases h
    exact ⟨⟨hkeys, List.forall₂_iff_zip.mpr ⟨hlength, fun hp => hp⟩⟩, rfl⟩
  · cases h

end NameTable

namespace Shape

variable {x y z : Shape}

theorem Alike.mono (hRS : ∀ a b, R a b → S a b) (h : x.Alike R y) : x.Alike S y := by
  cases h with
  | model h => exact .model (h.mono hRS)
  | union h => exact .union (h.mono hRS)
  | interface h => exact .interface (h.mono hRS)
  | enum h => exact .enum (h.mono hRS)
  | modelProperty h => exact .modelProperty (hRS _ _ h)
  | unionVariant h => exact .unionVariant (hRS _ _ h)
  | operation hp hr => exact .operation (hRS _ _ hp) (hRS _ _ hr)
  | enumMember => exact .enumMember
  | scalar h =>
    cases h with
    | some h => exact .scalar (.some (hRS _ _ h))
    | none => exact .scalar .none
  | intrinsic => exact .intrinsic
  | stringLiteral => exact .stringLiteral
  | numericLiteral => exact .numericLiteral
  | booleanLiteral => exact .booleanLiteral
  | tuple h => exact .tuple (h.imp hRS)

theorem Alike.swap (h : x.Alike R y) : y.Alike (flip R) x := by
  cases h with
  | model h => exact .model h.swap
  | union h => exact .union h.swap
  | interface h => exact .interface h.swap
  | enum h => exact .enum h.swap
  | modelProperty h => exact .modelProperty h
  | unionVariant h => exact .unionVariant h
  | operation hp hr => exact .operation hp hr
  | enumMember => exact .enumMember
  | scalar h =>
    cases h with
    | some h => exact .scalar (.some h)
    | none => exact .scalar .none
  | intrinsic => exact .intrinsic
  | stringLiteral => exact .stringLiteral
  | numericLiteral => exact .numericLiteral
  | booleanLiteral => exact .booleanLiteral
  | tuple h => exact .tuple h.flip

theorem Alike.comp (h : x.Alike R y) (h' : y.Alike S z) : x.Alike (Relation.Comp R S) z := by
  cases h with
  | model h => cases h' with | model h' => exact .model (h.comp h')
  | union h => cases h' with | union h' => exact .union (h.comp h')
  | interface h => cases h' with | interface h' => exact .interface (h.comp h')
  | enum h => cases h' with | enum h' => exact .enum (h.comp h')
  | modelProperty h => cases h' with | modelProperty h' => exact .modelProperty ⟨_, h, h'⟩
  | unionVariant h => cases h' with | unionVariant h' => exact .unionVariant ⟨_, h, h'⟩
  | operation hp hr =>
    cases h' with | operation hp' hr' => exact .operation ⟨_, hp, hp'⟩ ⟨_, hr, hr'⟩
  | enumMember => cases h'; exact .enumMember
  | scalar h =>
    cases h' with
    | scalar h' =>
      cases h with
      | some h => cases h' with | some h' => exact .scalar (.some ⟨_, h, h'⟩)
      | none => cases h'; exact .scalar .none
  | intrinsic => cases h'; exact .intrinsic
  | stringLiteral => cases h'; exact .stringLiteral
  | numericLiteral => cases h'; exact .numericLiteral
  | booleanLiteral => cases h'; exact .booleanLiteral
  | tuple h => cases h' with | tuple h' => exact .tuple (forall₂_comp h h')

theorem Alike.references (h : x.Alike R y) : List.Forall₂ R x.references y.references := by
  cases h with
  | model h | union h | interface h | enum h => exact h.values
  | modelProperty h | unionVariant h => exact .cons h .nil
  | operation hp hr => exact .cons hp (.cons hr .nil)
  | scalar h =>
    cases h with
    | some h => exact .cons h .nil
    | none => exact .nil
  | enumMember | intrinsic | stringLiteral | numericLiteral | booleanLiteral => exact .nil
  | tuple h => exact h

/-- Alike shapes are compared without objection. -/
theorem Alike.match? (h : x.Alike R y) :
    x.match? y = some (x.references.zip y.references) := by
  cases h with
  | model h | union h | interface h | enum h => exact (if_pos rfl).trans h.pairs?
  | modelProperty | enumMember => exact if_pos ⟨rfl, rfl⟩
  | unionVariant | operation => exact if_pos rfl
  | scalar h => cases h <;> exact if_pos rfl
  | intrinsic | stringLiteral | numericLiteral | booleanLiteral => exact if_pos rfl
  | tuple h => exact if_pos h.length_eq

/-- Shapes that are compared without objection are alike by the pairs of their references. -/
theorem alike_of_match? {pairs : List (NodeId × NodeId)} (h : x.match? y = some pairs) :
    x.Alike (fun a b => (a, b) ∈ pairs) y ∧ pairs = x.references.zip y.references := by
  revert h
  fun_cases x.match? y with
  | case1 | case3 | case5 | case7 =>
    intro h
    obtain ⟨halike, hpairs⟩ := NameTable.alike_of_pairs? h
    exact ⟨by constructor; exact halike, hpairs⟩
  | case9 n t o n' t' o' heq =>
    rintro ⟨⟩
    obtain ⟨rfl, rfl⟩ := heq
    exact ⟨.modelProperty List.mem_cons_self, rfl⟩
  | case11 =>
    rintro ⟨⟩
    exact ⟨.unionVariant List.mem_cons_self, rfl⟩
  | case13 =>
    rintro ⟨⟩
    exact ⟨.operation List.mem_cons_self (List.mem_cons_of_mem _ List.mem_cons_self), rfl⟩
  | case15 n v n' v' heq =>
    rintro ⟨⟩
    obtain ⟨rfl, rfl⟩ := heq
    exact ⟨.enumMember, rfl⟩
  | case17 =>
    rintro ⟨⟩
    exact ⟨.scalar .none, rfl⟩
  | case19 =>
    rintro ⟨⟩
    exact ⟨.scalar (.some List.mem_cons_self), rfl⟩
  | case21 | case23 | case25 | case27 =>
    rintro ⟨⟩
    exact ⟨by constructor, rfl⟩
  | case29 es es' hlength =>
    rintro ⟨⟩
    exact ⟨.tuple (List.forall₂_iff_zip.mpr ⟨hlength, fun hp => hp⟩), rfl⟩
  | _ =>
    intro h
    cases h

end Shape

namespace Graph

variable {g : Graph} {a b c : NodeId} {todo assumed : List (NodeId × NodeId)} {fuel : Nat}

/-! ### Bisimulations -/

/-- **Bisimulations.** Related nodes are the same node or agree up to their references, which are
related again. -/
def Bisimulation (g : Graph) (R : NodeId → NodeId → Prop) : Prop :=
  ∀ a b, R a b → a = b ∨ (g.shape a).Alike R (g.shape b)

/-- Two nodes are bisimilar if some bisimulation relates them. -/
def Bisimilar (g : Graph) (a b : NodeId) : Prop := ∃ R, g.Bisimulation R ∧ R a b

/-- Bisimilarity is the largest bisimulation. -/
theorem bisimulation_bisimilar (g : Graph) : g.Bisimulation g.Bisimilar := by
  rintro a b ⟨R, hR, hab⟩
  exact (hR a b hab).imp_right (Shape.Alike.mono fun c d hcd => ⟨R, hR, hcd⟩)

theorem Bisimilar.refl (g : Graph) (a : NodeId) : g.Bisimilar a a :=
  ⟨Eq, fun _ _ h => .inl h, rfl⟩

theorem Bisimilar.symm (h : g.Bisimilar a b) : g.Bisimilar b a := by
  obtain ⟨R, hR, hab⟩ := h
  exact ⟨flip R, fun c d hcd => (hR d c hcd).imp Eq.symm Shape.Alike.swap, hab⟩

/-- Bisimilarity composed with itself is a bisimulation. A pair that one of the two halves relates
as the same node is a pair of the other half, and that half is contained in the composite. -/
theorem Bisimilar.trans (hab : g.Bisimilar a b) (hbc : g.Bisimilar b c) : g.Bisimilar a c := by
  refine ⟨Relation.Comp g.Bisimilar g.Bisimilar, ?_, b, hab, hbc⟩
  rintro x z ⟨y, hxy, hyz⟩
  rcases g.bisimulation_bisimilar x y hxy with rfl | hxy
  · exact (g.bisimulation_bisimilar x z hyz).imp_right
      (Shape.Alike.mono fun _ _ h => ⟨_, .refl g _, h⟩)
  · rcases g.bisimulation_bisimilar y z hyz with rfl | hyz
    · exact .inr (hxy.mono fun _ _ h => ⟨_, h, .refl g _⟩)
    · exact .inr (hxy.comp hyz)

/-! ### Soundness -/

/-- **What the search relies on.** The nodes of every assumed pair agree up to their references, and
the references are the same, assumed, or still to be compared. -/
def Justified (g : Graph) (todo assumed : List (NodeId × NodeId)) : Prop :=
  ∀ p ∈ assumed, (g.shape p.1).Alike (fun c d => c = d ∨ (c, d) ∈ assumed ∨ (c, d) ∈ todo)
    (g.shape p.2)

theorem justified_nil (g : Graph) (todo : List (NodeId × NodeId)) : g.Justified todo [] :=
  fun _ hp => nomatch hp

/-- A pair of one node, or one that is assumed, need not be compared. -/
theorem Justified.skip (h : g.Justified ((a, b) :: todo) assumed)
    (hskip : a = b ∨ (a, b) ∈ assumed) : g.Justified todo assumed := by
  refine fun p hp => (h p hp).mono fun c d hcd => ?_
  rcases hcd with heq | hassumed | htodo
  · exact .inl heq
  · exact .inr (.inl hassumed)
  · rcases List.mem_cons.mp htodo with hpair | htodo
    · cases hpair
      exact hskip.imp_right .inl
    · exact .inr (.inr htodo)

/-- A pair is assumed once its nodes match, and what they refer to is left to compare. -/
theorem Justified.assume (h : g.Justified ((a, b) :: todo) assumed)
    {pairs : List (NodeId × NodeId)} (hmatch : (g.shape a).match? (g.shape b) = some pairs) :
    g.Justified (pairs ++ todo) ((a, b) :: assumed) := by
  intro p hp
  rcases List.mem_cons.mp hp with rfl | hp
  · exact (Shape.alike_of_match? hmatch).1.mono fun c d hcd =>
      .inr (.inr (List.mem_append_left _ hcd))
  · refine (h p hp).mono fun c d hcd => ?_
    rcases hcd with heq | hassumed | htodo
    · exact .inl heq
    · exact .inr (.inl (List.mem_cons_of_mem _ hassumed))
    · rcases List.mem_cons.mp htodo with hpair | htodo
      · exact .inr (.inl (hpair ▸ List.mem_cons_self))
      · exact .inr (.inr (List.mem_append_right _ htodo))

/-- **Soundness.** If the verdict is yes, all pairs it was given are bisimilar: what it has
assumed in the end, together with equality, is a bisimulation. -/
theorem bisimilar_of_agree (hagree : g.agree fuel todo assumed = some true)
    (hjustified : g.Justified todo assumed) : ∀ p ∈ todo ++ assumed, g.Bisimilar p.1 p.2 := by
  fun_induction g.agree fuel todo assumed with
  | case1 fuel assumed =>
    -- nothing is left to compare: the assumed pairs lead to assumed pairs and equal nodes only
    intro p hp
    refine ⟨fun c d => c = d ∨ (c, d) ∈ assumed, fun c d hcd => ?_, .inr hp⟩
    refine hcd.imp_right fun hcd => (hjustified _ hcd).mono fun _ _ h => ?_
    exact h.imp_right fun h => h.resolve_right (fun h => nomatch h)
  | case2 => cases hagree
  | case3 fuel a b todo assumed hskip ih =>
    have hskip : a = b ∨ (a, b) ∈ assumed := by simpa using hskip
    have hrest := ih hagree (hjustified.skip hskip)
    intro p hp
    rcases List.mem_cons.mp hp with rfl | hp
    · rcases hskip with rfl | hmem
      · exact .refl g a
      · exact hrest _ (List.mem_append_right _ hmem)
    · exact hrest p hp
  | case4 => cases hagree
  | case5 fuel a b todo assumed _ pairs hmatch ih =>
    -- the pair is one of those assumed from here on
    have hrest := ih hagree (hjustified.assume hmatch)
    intro p hp
    refine hrest p ?_
    rcases List.mem_cons.mp hp with rfl | hp
    · exact List.mem_append_right _ List.mem_cons_self
    · rcases List.mem_append.mp hp with htodo | hassumed
      · exact List.mem_append_left _ (List.mem_append_right _ htodo)
      · exact List.mem_append_right _ (List.mem_cons_of_mem _ hassumed)

/-! ### Termination -/

/-- The pairs that may still come up: for every pair of nodes that is not assumed, as many as its
first node has references. -/
def pending (g : Graph) (assumed : List (NodeId × NodeId)) : Nat :=
  ∑ p ∈ Finset.range g.size ×ˢ Finset.range g.size with (⟨p.1⟩, ⟨p.2⟩) ∉ assumed,
    (g.shape ⟨p.1⟩).references.length

theorem referenceCount_eq_sum (g : Graph) :
    g.referenceCount = ∑ i ∈ Finset.range g.size, (g.shape ⟨i⟩).references.length := by
  have hshape : ∀ i : Fin g.size, (g.shape ⟨i⟩).references.length =
      (g.nodes.toList[i]).shape.references.length := by
    intro i
    have hnode : g.node? ⟨i⟩ = some g.nodes[i] := Array.getElem?_eq_getElem i.isLt
    rw [shape, hnode]
    rfl
  have hcount : g.referenceCount =
      (g.nodes.toList.map fun node => node.shape.references.length).sum := by
    rw [referenceCount, ← Array.foldl_toList, List.sum_eq_foldl, List.foldl_map]
  rw [Finset.sum_range, Finset.sum_congr rfl fun i _ => hshape i, hcount]
  exact (Fin.sum_univ_fun_getElem g.nodes.toList _).symm

theorem pending_nil (g : Graph) : g.pending [] = g.size * g.referenceCount := by
  have hall : ∀ p ∈ Finset.range g.size ×ˢ Finset.range g.size,
      ((⟨p.1⟩, ⟨p.2⟩) : NodeId × NodeId) ∉ [] := fun _ _ => List.not_mem_nil
  rw [pending, Finset.filter_true_of_mem hall, Finset.sum_product, referenceCount_eq_sum,
    Finset.mul_sum]
  refine Finset.sum_congr rfl fun i _ => ?_
  simp only [Finset.sum_const, Finset.card_range, smul_eq_mul]

/-- A node outside the graph has no references. -/
theorem references_of_not_contains (h : ¬ g.contains a) : (g.shape a).references = [] := by
  have hnode : g.node? a = none :=
    Array.getElem?_eq_none (Nat.le_of_not_lt fun hlt => h (contains_iff.mpr hlt))
  rw [shape, hnode]
  rfl

/-- Assuming a pair uses up what it adds. -/
theorem length_add_pending_le (hnew : (a, b) ∉ assumed) {pairs : List (NodeId × NodeId)}
    (hmatch : (g.shape a).match? (g.shape b) = some pairs) :
    pairs.length + g.pending ((a, b) :: assumed) ≤ g.pending assumed := by
  have hpairs := (Shape.alike_of_match? hmatch).2
  by_cases hin : g.contains a ∧ g.contains b
  -- the pair is dropped from the sum, with as many pairs as its first node has references
  · have hmem : (a.index, b.index) ∈ (Finset.range g.size ×ˢ Finset.range g.size).filter
        fun p => ((⟨p.1⟩, ⟨p.2⟩) : NodeId × NodeId) ∉ assumed := by
      simpa [contains] using And.intro hin hnew
    have hlength : pairs.length ≤ (g.shape a).references.length := by
      rw [hpairs, List.length_zip]
      exact Nat.min_le_left _ _
    have herase : (Finset.range g.size ×ˢ Finset.range g.size).filter
        (fun p => ((⟨p.1⟩, ⟨p.2⟩) : NodeId × NodeId) ∉ (a, b) :: assumed) =
        ((Finset.range g.size ×ˢ Finset.range g.size).filter
          fun p => ((⟨p.1⟩, ⟨p.2⟩) : NodeId × NodeId) ∉ assumed).erase (a.index, b.index) := by
      ext p
      have hpair : (((⟨p.1⟩, ⟨p.2⟩) : NodeId × NodeId) = (a, b)) ↔ p = (a.index, b.index) := by
        cases a
        cases b
        simp [Prod.ext_iff]
      rw [Finset.mem_erase, Finset.mem_filter, Finset.mem_filter, List.mem_cons, not_or, hpair]
      exact and_left_comm
    calc pairs.length + g.pending ((a, b) :: assumed)
        ≤ (g.shape a).references.length + g.pending ((a, b) :: assumed) :=
          Nat.add_le_add_right hlength _
      _ = g.pending assumed := by
          rw [pending, herase]
          exact Finset.add_sum_erase _ (fun p => (g.shape ⟨p.1⟩).references.length) hmem
  -- nothing is added, and no pair of nodes of the graph is dropped from the sum
  · have hnone : pairs = [] := by
      rcases not_and_or.mp hin with ha | hb
      · rw [hpairs, references_of_not_contains ha, List.zip_nil_left]
      · rw [hpairs, references_of_not_contains hb, List.zip_nil_right]
    rw [hnone, List.length_nil, Nat.zero_add]
    refine Finset.sum_le_sum_of_subset fun p hp => ?_
    rw [Finset.mem_filter] at hp ⊢
    exact ⟨hp.1, fun hmem => hp.2 (List.mem_cons_of_mem _ hmem)⟩

/-- **Termination.** With enough steps for all pairs that may come up, the search comes to a
verdict. -/
theorem agree_isSome (hfuel : todo.length + g.pending assumed ≤ fuel) :
    (g.agree fuel todo assumed).isSome := by
  fun_induction g.agree fuel todo assumed with
  | case1 => rfl
  | case2 p todo assumed =>
    -- the steps do not run out with a pair left to compare
    rw [List.length_cons] at hfuel
    omega
  | case3 fuel a b todo assumed _ ih =>
    rw [List.length_cons] at hfuel
    exact ih (by omega)
  | case4 => rfl
  | case5 fuel a b todo assumed hnew pairs hmatch ih =>
    -- what the pair adds is taken off what may still come up
    have hnew : a ≠ b ∧ (a, b) ∉ assumed := by simpa using hnew
    have hpending := length_add_pending_le hnew.2 hmatch
    rw [List.length_cons] at hfuel
    refine ih ?_
    rw [List.length_append]
    omega

/-- Two nodes are compared within one step more than the references times the nodes. -/
theorem agree_isSome_of_le (a b : NodeId) (hfuel : g.size * g.referenceCount + 1 ≤ fuel) :
    (g.agree fuel [(a, b)] []).isSome := by
  refine agree_isSome ?_
  rw [pending_nil, List.length_singleton]
  omega

/-! ### Completeness -/

/-- **Completeness.** Pairs of a bisimulation are not told apart, whatever is assumed and however
many steps there are. -/
theorem agree_ne_false (hR : g.Bisimulation R) (htodo : ∀ p ∈ todo, R p.1 p.2) :
    g.agree fuel todo assumed ≠ some false := by
  fun_induction g.agree fuel todo assumed with
  | case1 => exact fun h => nomatch h
  | case2 => exact fun h => nomatch h
  | case3 fuel a b todo assumed _ ih =>
    exact ih fun p hp => htodo p (List.mem_cons_of_mem _ hp)
  | case4 fuel a b todo assumed hnew hmatch =>
    -- nodes of a pair of the bisimulation match
    have hne : a ≠ b := fun heq => hnew (by simp [heq])
    have halike := (hR a b (htodo _ List.mem_cons_self)).resolve_left hne
    rw [halike.match?] at hmatch
    cases hmatch
  | case5 fuel a b todo assumed hnew pairs hmatch ih =>
    have hne : a ≠ b := fun heq => hnew (by simp [heq])
    have halike := (hR a b (htodo _ List.mem_cons_self)).resolve_left hne
    have hpairs : ∀ p ∈ pairs, R p.1 p.2 := by
      rw [halike.match?] at hmatch
      cases hmatch
      exact fun p hp => (List.forall₂_iff_zip.mp halike.references).2 hp
    refine ih fun p hp => ?_
    rcases List.mem_append.mp hp with hp | hp
    · exact hpairs p hp
    · exact htodo p (List.mem_cons_of_mem _ hp)

/-- With enough steps the search decides bisimilarity. -/
theorem agree_iff_bisimilar (a b : NodeId) (hfuel : g.size * g.referenceCount + 1 ≤ fuel) :
    g.agree fuel [(a, b)] [] = some true ↔ g.Bisimilar a b := by
  constructor
  · intro hagree
    exact bisimilar_of_agree hagree (g.justified_nil _) _ List.mem_cons_self
  · rintro ⟨R, hR, hab⟩
    obtain ⟨verdict, hverdict⟩ := Option.isSome_iff_exists.mp (agree_isSome_of_le a b hfuel)
    have hne : g.agree fuel [(a, b)] [] ≠ some false :=
      agree_ne_false hR (List.forall_mem_singleton.mpr hab)
    cases verdict with
    | true => exact hverdict
    | false => exact absurd hverdict hne

theorem structurallyEqual_iff (a b : NodeId) :
    g.structurallyEqual a b = true ↔ g.Bisimilar a b := by
  rw [structurallyEqual, beq_iff_eq]
  exact agree_iff_bisimilar a b le_rfl

/-- **Structural equality is bisimilarity.** The comparison of two nodes comes to a verdict within
the steps it is given, whether the nodes are equal or not, and with more steps to the same one. The
verdict is yes exactly if some bisimulation relates the two, and so structural equality is an
equivalence relation. -/
theorem structurallyEqual_iff_bisimilar (g : Graph) :
    (∀ a b,
      (∀ fuel, g.size * g.referenceCount + 1 ≤ fuel →
        g.agree fuel [(a, b)] [] = some (g.structurallyEqual a b)) ∧
      (g.structurallyEqual a b = true ↔ ∃ R, g.Bisimulation R ∧ R a b)) ∧
    Equivalence fun a b => g.structurallyEqual a b = true := by
  have hiff : ∀ a b, g.structurallyEqual a b = true ↔ g.Bisimilar a b := structurallyEqual_iff
  refine ⟨fun a b => ⟨fun fuel hfuel => ?_, hiff a b⟩, ?_⟩
  · obtain ⟨verdict, hverdict⟩ := Option.isSome_iff_exists.mp (agree_isSome_of_le a b hfuel)
    have hyes : verdict = true ↔ g.structurallyEqual a b = true := by
      rw [hiff, ← agree_iff_bisimilar a b hfuel, hverdict, Option.some_inj]
    rw [hverdict, Bool.eq_iff_iff.mpr hyes]
  · exact {
      refl a := (hiff a a).mpr (.refl g a)
      symm h := (hiff _ _).mpr ((hiff _ _).mp h).symm
      trans h h' := (hiff _ _).mpr (((hiff _ _).mp h).trans ((hiff _ _).mp h')) }

/-- Two lists, `25` and `27`, whose next element is optional and of the list's own type. -/
def twoLists : Graph :=
  let list (next : NodeId) := Shape.model (some "List") (.ofList [("next", next)])
  let next (list : NodeId) := Shape.modelProperty "next" list true
  (((initial.push ⟨none, list ⟨26⟩⟩).push ⟨none, next ⟨25⟩⟩).push ⟨none, list ⟨28⟩⟩).push
    ⟨none, next ⟨27⟩⟩

/-- The comparison of the two lists comes back to the pair it began with, and they are bisimilar;
a list is told apart from its own property, and the two are not. -/
theorem structurallyEqual_iff_bisimilar_twoLists :
    twoLists.size * twoLists.referenceCount + 1 ≤ 200 ∧
    twoLists.agree 200 [(⟨25⟩, ⟨27⟩)] [] = some true ∧
    twoLists.agree 200 [(⟨25⟩, ⟨28⟩)] [] = some false ∧
    (∃ R, twoLists.Bisimulation R ∧ R ⟨25⟩ ⟨27⟩) ∧
    ¬ ∃ R, twoLists.Bisimulation R ∧ R ⟨25⟩ ⟨28⟩ := by
  have hrun : twoLists.size * twoLists.referenceCount + 1 ≤ 200 ∧
      twoLists.structurallyEqual ⟨25⟩ ⟨27⟩ = true ∧
      twoLists.structurallyEqual ⟨25⟩ ⟨28⟩ = false := by
    decide +kernel
  have hlists := (structurallyEqual_iff_bisimilar twoLists).1
  have hequal := (hlists ⟨25⟩ ⟨27⟩).1 200 hrun.1
  have hunequal := (hlists ⟨25⟩ ⟨28⟩).1 200 hrun.1
  rw [hrun.2.1] at hequal
  rw [hrun.2.2] at hunequal
  refine ⟨hrun.1, hequal, hunequal, (hlists _ _).2.mp hrun.2.1, fun h => ?_⟩
  exact Bool.false_ne_true (hrun.2.2.symm.trans ((hlists _ _).2.mpr h))

end Graph

end SchemaProjection
