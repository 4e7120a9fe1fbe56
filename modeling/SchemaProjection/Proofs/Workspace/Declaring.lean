import Mathlib.Data.List.Forall2
import SchemaProjection.Workspace

/-!
# Declaring a source

A source is read as a whole before anything in it is declared, so a source with a fault in its form
declares nothing. What its selectors stand for is found out later, while the projections are
declared one after the other: the first selector that stands for nothing ends this, and what is
declared by then stays.

`Workspace.declareRead_appends` says what is left in each case. Declaring is all or nothing with one
exception, a source in which projections stand in front of the one with the unknown selector.
Nothing but the declarations ever changes, and these only get longer, so no id that was handed out
before comes to mean another projection.
-/

namespace SchemaProjection

/-- **A projection is what a tree declares**, over a graph and with a number of modules imported. -/
structure Projection.DeclaredBy (g : Graph) (hostCount : Nat) (tree : ProjectionTree)
    (p : Projection) : Prop where
  target : Declarations.target? g tree.selector.text = some p.target
  name : p.name = tree.name.text
  forward : p.forward? = tree.forward?
  backward : p.backward? = tree.backward?
  hostCount : p.hostCount = hostCount
  span : p.span = tree.span

namespace Declarations

variable {d : Declarations} {g : Graph} {hostCount : Nat} {trees front rest : List ProjectionTree}
  {tree : ProjectionTree} {ps : List Projection} {p : Projection}

/-- The declarations with others behind them. -/
def append (d : Declarations) (ps : List Projection) : Declarations := ⟨d.projections ++ ps⟩

/-- The ids that the next projections get. -/
def nextIds (d : Declarations) (count : Nat) : List ProjectionId :=
  (List.range' d.projections.length count).map ProjectionId.mk

/-- Whether the selector of a tree stands for something. -/
def Known (g : Graph) (tree : ProjectionTree) : Prop := (target? g tree.selector.text).isSome

theorem append_nil (d : Declarations) : d.append [] = d := by
  rw [append, List.append_nil]

theorem append_append (d : Declarations) (ps qs : List Projection) :
    (d.append ps).append qs = d.append (ps ++ qs) := by
  rw [append, append, append, List.append_assoc]

/-- Ids keep their meaning. -/
theorem get?_append {id : ProjectionId} (h : d.get? id = some p) : (d.append ps).get? id = some p :=
  (List.getElem?_append_left (List.getElem?_eq_some_iff.mp h).1).trans h

/-- **A tree with a known selector** is declared behind the others. -/
theorem declare_of_known (d : Declarations) (hostCount : Nat) (h : Known g tree) :
    ∃ p, p.DeclaredBy g hostCount tree ∧ p.id = ⟨d.projections.length⟩ ∧
      d.declare g hostCount tree = .ok (p.id, d.append [p]) := by
  obtain ⟨target, htarget⟩ := Option.isSome_iff_exists.mp h
  refine ⟨⟨⟨d.projections.length⟩, target, tree.name.text, tree.forward?, tree.backward?, hostCount,
    tree.span⟩, ⟨htarget, rfl, rfl, rfl, rfl, rfl⟩, rfl, ?_⟩
  rw [declare, htarget]
  rfl

theorem declare_of_not_known (h : ¬ Known g tree) :
    d.declare g hostCount tree = .error ⟨tree.selector⟩ := by
  rw [declare, Option.not_isSome_iff_eq_none.mp h]

/-- **Known trees are declared in order**, before the rest is looked at. -/
theorem declareAll_append (d : Declarations) (hostCount : Nat)
    (hfront : ∀ tree ∈ front, Known g tree) (rest : List ProjectionTree) :
    ∃ ps, List.Forall₂ (Projection.DeclaredBy g hostCount) front ps ∧
      ps.map Projection.id = d.nextIds ps.length ∧
      d.declareAll g hostCount (front ++ rest) =
        (((d.append ps).declareAll g hostCount rest).1.map (ps.map Projection.id ++ ·),
          ((d.append ps).declareAll g hostCount rest).2) := by
  induction front generalizing d with
  | nil =>
    refine ⟨[], .nil, rfl, ?_⟩
    rw [append_nil, List.nil_append]
    cases hrest : d.declareAll g hostCount rest with
    | mk result after => cases result <;> rfl
  | cons tree front ih =>
    obtain ⟨htree, hfront⟩ := List.forall_mem_cons.mp hfront
    obtain ⟨p, hp, hid, hdeclare⟩ := d.declare_of_known hostCount htree
    obtain ⟨ps, hps, hids, hall⟩ := ih (d.append [p]) hfront
    refine ⟨p :: ps, .cons hp hps, ?_, ?_⟩
    · -- the ids go on where the first one stands
      have hlength : (d.append [p]).projections.length = d.projections.length + 1 := by
        rw [append, List.length_append, List.length_singleton]
      rw [List.map_cons, hids, hid, nextIds, nextIds, hlength, List.length_cons, List.range'_succ,
        List.map_cons]
    · rw [List.cons_append, declareAll, hdeclare]
      dsimp only
      rw [hall, append_append, List.singleton_append]
      cases ((d.append (p :: ps)).declareAll g hostCount rest).1 <;> rfl

/-- **A declared projection** was declared before, or one of the trees declares it. -/
theorem mem_or_declaredBy_of_mem_declareAll
    (hp : p ∈ (d.declareAll g hostCount trees).2.projections) :
    p ∈ d.projections ∨ ∃ tree ∈ trees, p.DeclaredBy g hostCount tree := by
  induction trees generalizing d with
  | nil => exact .inl hp
  | cons tree rest ih =>
    by_cases htree : Known g tree
    · obtain ⟨first, hfirst, -, hdeclare⟩ := d.declare_of_known hostCount htree
      rw [declareAll, hdeclare] at hp
      rcases ih hp with hold | ⟨other, hother, hdeclared⟩
      · -- the tree in front declares the last one of those before the rest
        rcases List.mem_append.mp hold with hbefore | hnew
        · exact .inl hbefore
        · exact .inr ⟨tree, List.mem_cons_self, List.mem_singleton.mp hnew ▸ hfirst⟩
      · exact .inr ⟨other, List.mem_cons_of_mem tree hother, hdeclared⟩
    · rw [declareAll, declare_of_not_known htree] at hp
      exact .inl hp

/-- Trees have known selectors, or there is a first one that has not. -/
theorem known_or_first (g : Graph) (trees : List ProjectionTree) :
    (∀ tree ∈ trees, Known g tree) ∨
      ∃ front tree back, trees = front ++ tree :: back ∧ (∀ tree ∈ front, Known g tree) ∧
        ¬ Known g tree := by
  induction trees with
  | nil => exact .inl fun _ h => nomatch h
  | cons tree rest ih =>
    by_cases htree : Known g tree
    · rcases ih with hall | ⟨front, other, back, rfl, hfront, hother⟩
      · exact .inl (List.forall_mem_cons.mpr ⟨htree, hall⟩)
      · exact .inr ⟨tree :: front, other, back, rfl, List.forall_mem_cons.mpr ⟨htree, hfront⟩,
          hother⟩
    · exact .inr ⟨[], tree, rest, rfl, fun _ h => (nomatch h), htree⟩

end Declarations

namespace Workspace

/-- The workspace with more projections declared. -/
def withProjections (w : Workspace) (ps : List Projection) : Workspace :=
  { w with declarations := w.declarations.append ps }

theorem withProjections_nil (w : Workspace) : w.withProjections [] = w := by
  rw [withProjections, Declarations.append_nil]

/-- **What declaring a source leads to.** The source is read, and then its trees are declared up to
the first one with an unknown selector. -/
inductive Declares (w : Workspace) (source : Source) :
    Except FileFault (List ProjectionId) → Workspace → Prop
  | all {trees : List ProjectionTree} {ps : List Projection} (read : source.projections = .ok trees)
    (declared : List.Forall₂ (Projection.DeclaredBy w.graph w.hosts.length) trees ps)
    (ids : ps.map Projection.id = w.declarations.nextIds ps.length) :
    Declares w source (.ok (ps.map Projection.id)) (w.withProjections ps)
  | unread {fault : SyntaxFault} (fails : source.projections = .error fault) :
    Declares w source (.error (.syntactic fault source)) w
  | unknown {front back : List ProjectionTree} {tree : ProjectionTree} {ps : List Projection}
    (read : source.projections = .ok (front ++ tree :: back))
    (none_known : Declarations.target? w.graph tree.selector.text = none)
    (declared : List.Forall₂ (Projection.DeclaredBy w.graph w.hosts.length) front ps)
    (ids : ps.map Projection.id = w.declarations.nextIds ps.length) :
    Declares w source (.error (.selector ⟨tree.selector⟩ source)) (w.withProjections ps)

theorem declares_declareSource (w : Workspace) (source : Source) :
    Declares w source (w.declareSource source).1 (w.declareSource source).2 := by
  unfold declareSource
  cases hread : source.projections with
  | error fault => exact .unread hread
  | ok trees =>
    rcases Declarations.known_or_first w.graph trees with
      hall | ⟨front, tree, back, rfl, hfront, htree⟩
    · obtain ⟨ps, hps, hids, hdeclared⟩ :=
        w.declarations.declareAll_append w.hosts.length hall []
      rw [List.append_nil] at hdeclared
      dsimp only
      rw [hdeclared]
      show Declares w source (.ok (ps.map Projection.id ++ [])) _
      rw [List.append_nil]
      exact .all hread hps hids
    · -- the trees in front are declared before the unknown one is looked at
      obtain ⟨ps, hps, hids, hdeclared⟩ :=
        w.declarations.declareAll_append w.hosts.length hfront (tree :: back)
      dsimp only
      rw [hdeclared, Declarations.declareAll, Declarations.declare_of_not_known htree]
      exact .unknown hread (Option.not_isSome_iff_eq_none.mp htree) hps hids

/-- **What is left of declaring a source**, given its text or the reason why it cannot be read. If
it succeeds, exactly its projections are declared behind the ones before, in their order, and their
ids are returned. If it fails, the workspace is as it was, unless projections stand in front of one
whose selector stands for nothing: then these are declared, and only these. -/
theorem declareRead_appends (w : Workspace) (file : String) (contents : Except String String) :
    (∀ ids, (w.declareRead file contents).1 = .ok ids → ∃ text trees ps, contents = .ok text ∧
      Source.projections ⟨file, text⟩ = .ok trees ∧
      List.Forall₂ (Projection.DeclaredBy w.graph w.hosts.length) trees ps ∧
      ids = ps.map Projection.id ∧ ids = w.declarations.nextIds trees.length ∧
      (w.declareRead file contents).2 = w.withProjections ps) ∧
    (∀ fault, (w.declareRead file contents).1 = .error fault →
      (w.declareRead file contents).2 = w ∨
      ∃ text front tree back ps, contents = .ok text ∧
        Source.projections ⟨file, text⟩ = .ok (front ++ tree :: back) ∧ front ≠ [] ∧
        fault = .selector ⟨tree.selector⟩ ⟨file, text⟩ ∧
        Declarations.target? w.graph tree.selector.text = none ∧
        List.Forall₂ (Projection.DeclaredBy w.graph w.hosts.length) front ps ∧
        (w.declareRead file contents).2 = w.withProjections ps) ∧
    ∀ id p, w.declarations.get? id = some p →
      (w.declareRead file contents).2.declarations.get? id = some p := by
  cases contents with
  | error reason => exact ⟨fun _ h => (nomatch h), fun _ _ => .inl rfl, fun _ _ h => h⟩
  | ok text =>
    rw [declareRead, declare, Source.ofText]
    split
    · next fault hlarge =>
      -- a source that is too large is not read
      exact ⟨fun _ h => (nomatch h), fun _ _ => .inl rfl, fun _ _ h => h⟩
    · next source hsource =>
      obtain rfl : source = ⟨file, text⟩ := by
        split at hsource
        · exact nomatch hsource
        · exact (Except.ok.inj hsource).symm
      have hdeclares := declares_declareSource w ⟨file, text⟩
      generalize w.declareSource ⟨file, text⟩ = outcome at hdeclares
      obtain ⟨result, after⟩ := outcome
      cases hdeclares with
      | all hread hps hids =>
        refine ⟨fun ids h => ?_, fun _ h => (nomatch h), fun _ _ h => Declarations.get?_append h⟩
        cases h
        exact ⟨text, _, _, rfl, hread, hps, rfl, hps.length_eq ▸ hids, rfl⟩
      | unread hfails => exact ⟨fun _ h => (nomatch h), fun _ _ => .inl rfl, fun _ _ h => h⟩
      | @unknown front back tree ps hread hnone hps hids =>
        refine ⟨fun _ h => (nomatch h), fun fault h => ?_,
          fun _ _ h => Declarations.get?_append h⟩
        cases h
        -- with nothing in front the workspace is as it was
        cases hps with
        | nil => exact .inl w.withProjections_nil
        | cons hp hps =>
          exact .inr ⟨text, _, tree, back, _, rfl, hread, List.cons_ne_nil _ _, rfl, hnone,
            .cons hp hps, rfl⟩

/-- A projection on models, and one on a type that is not declared. -/
def strayText : String :=
  "projection model#a \x7b to \x7b \x7d \x7d projection Nope#b \x7b to \x7b \x7d \x7d"

/-- The projection in front of the one with the unknown selector stays. -/
theorem declareRead_appends_stray : ∃ ps,
    ((ofGraph .initial).declareRead "t.cadl" (.ok strayText)).1 =
      .error (.selector ⟨"Nope", ⟨"t.cadl", 1, 42, 41, 45⟩⟩ ⟨"t.cadl", strayText⟩) ∧
    ((ofGraph .initial).declareRead "t.cadl" (.ok strayText)).2 =
      (ofGraph .initial).withProjections ps ∧ ps.length = 1 := by
  have hresult : ((ofGraph .initial).declareRead "t.cadl" (.ok strayText)).1 =
      .error (.selector ⟨"Nope", ⟨"t.cadl", 1, 42, 41, 45⟩⟩ ⟨"t.cadl", strayText⟩) := by
    decide +kernel
  have hlength : ((ofGraph .initial).declareRead "t.cadl"
      (.ok strayText)).2.declarations.projections.length = 1 := by decide +kernel
  rcases (declareRead_appends (ofGraph .initial) "t.cadl" (.ok strayText)).2.1 _ hresult with
    hsame | ⟨_, _, _, _, ps, _, _, _, _, _, _, hps⟩
  · rw [hsame] at hlength
    exact nomatch hlength
  · rw [hps] at hlength
    exact ⟨ps, hresult, hps, hlength⟩

end Workspace

end SchemaProjection
