import Mathlib.Data.List.Induction
import SchemaProjection.Proofs.Run.CallTrees

/-!
# Applications in a log

Of each application a log tells when its body was evaluated, or what was returned instead. This
module reads a log from the beginning and keeps track of what it has told so far (`Progress`): the
memo as the entries make it, and the keys of the applications that were entered and not left.

An entry is **allowed** (`Progress.Allows`) if it goes with what is known before it: only what is
not known is entered or refused, what is known is returned, and at a start the memo and the
activations of the run are what the log says.

If every entry is allowed, the log obeys the policy of applications (`LogEntry.Policy`): no body is
evaluated twice, an active application stands for its node, and one that has been left stands for its
result. The proof is one invariant along the log (`Progress.Consistent`), which tells from the
entries alone what is known about a key.
-/

namespace SchemaProjection

/-! ### The policy -/

namespace LogEntry

/-- What an entry changes about the active applications. -/
def activeAfter (keys : List MemoKey) : LogEntry → List MemoKey
  | .enters key => key :: keys
  | .leaves _ _ => keys.tail
  | .starts _ | .returns _ _ | .refuses _ => keys

/-- The keys of the applications that a log enters and does not leave, the innermost first. -/
def active (log : List LogEntry) : List MemoKey := log.foldl activeAfter []

theorem active_append (front : List LogEntry) (entry : LogEntry) :
    active (front ++ [entry]) = activeAfter (active front) entry := List.foldl_append

/-- **The policy of applications.** Each clause speaks of an entry of the log in view of what stands
in front of it. -/
structure Policy (log : List LogEntry) : Prop where
  /-- A body is evaluated at most once. -/
  entered_once : ∀ front key back, log = front ++ .enters key :: back → .enters key ∉ front
  /-- An application whose body was entered before is not refused. -/
  refused_fresh : ∀ front key back, log = front ++ .refuses key :: back → .enters key ∉ front
  /-- While an application is active, it stands for the node itself. -/
  returns_node : ∀ front key result back, log = front ++ .returns key result :: back →
    key ∈ active front → result = key.node
  /-- Otherwise it was left before, and stands for the result that it was left with. -/
  returns_first : ∀ front key result back, log = front ++ .returns key result :: back →
    key ∉ active front → ∀ first, .leaves key first ∈ front ↔ first = result
  /-- Whenever the evaluation of an expression or a block starts, the active applications are
  distinct, there is one for each activation, and they are the ones that are marked as active. -/
  active_marked : ∀ front run back, log = front ++ .starts run :: back →
    (active front).Nodup ∧ (active front).length = run.activations.length ∧
      ∀ key, run.memo.find? key = some .active ↔ key ∈ active front
  /-- What is marked as done keeps its result. -/
  done_stays : ∀ front run middle later back,
    log = front ++ .starts run :: (middle ++ .starts later :: back) → ∀ key id,
      run.memo.find? key = some (.done id) → later.memo.find? key = some (.done id)

end LogEntry

/-! ### Progress -/

/-- What a log has told so far. -/
structure Progress where
  memo : Memo
  /-- The keys of the active applications, the innermost first. -/
  active : List MemoKey

namespace Progress

/-- Nothing is known at the beginning. -/
def start : Progress := ⟨.empty, []⟩

def after (s : Progress) : LogEntry → Progress
  | .enters key => ⟨s.memo.insert key .active, key :: s.active⟩
  | .leaves key result => ⟨s.memo.insert key (.done result), s.active.tail⟩
  | .starts _ | .returns _ _ | .refuses _ => s

/-- What is known after a log. -/
def along (s : Progress) (log : List LogEntry) : Progress := log.foldl after s

theorem along_append (s : Progress) (first second : List LogEntry) :
    s.along (first ++ second) = (s.along first).along second := List.foldl_append

theorem active_along (s : Progress) (log : List LogEntry) :
    (s.along log).active = log.foldl LogEntry.activeAfter s.active := by
  induction log generalizing s with
  | nil => rfl
  | cons entry rest ih =>
    refine (ih (s.after entry)).trans ?_
    cases entry <;> rfl

/-- The depths of activations, one for each active application. -/
def depths : List MemoKey → List Nat
  | [] => []
  | _ :: rest => (rest.length + 1) :: depths rest

theorem length_depths (keys : List MemoKey) : (depths keys).length = keys.length := by
  induction keys with
  | nil => rfl
  | cons key rest ih => rw [depths, List.length_cons, ih, List.length_cons]

/-- **A run is where a log says**: its memo is what the log makes it, and its activations are those
of the active applications, not more than the recursion limit allows. -/
structure Shows (setting : Setting) (s : Progress) (run : Run) : Prop where
  memo : run.memo = s.memo
  depths : run.activations.map Activation.depth = Progress.depths s.active
  bounded : s.active.length ≤ setting.options.maxDepth

theorem Shows.length_activations {setting : Setting} {s : Progress} {run : Run}
    (h : s.Shows setting run) : run.activations.length = s.active.length := by
  rw [← List.length_map Activation.depth, h.depths, length_depths]

theorem Shows.depth_eq {setting : Setting} {s : Progress} {run : Run} (h : s.Shows setting run) :
    run.depth = s.active.length := by
  have hdepths := h.depths
  rw [Run.depth]
  -- the depth of a run is the one that its innermost activation keeps
  cases hstack : run.activations with
  | nil =>
    have hlength := h.length_activations
    rw [hstack] at hlength
    exact hlength
  | cons a rest =>
    rw [hstack] at hdepths
    cases hactive : s.active with
    | nil =>
      rw [hactive] at hdepths
      cases hdepths
    | cons key keys =>
      rw [hactive] at hdepths
      exact (List.cons.inj hdepths).1

end Progress

/-- Whether a projection with the id of a key has the direction of the key. -/
def Setting.Offers (setting : Setting) (key : MemoKey) : Prop :=
  ∃ p ∈ setting.declarations.projections, p.id = key.projection ∧
    (p.direction? key.direction).isSome

/-- Whether a projection with the id of a key lacks the direction of the key. -/
def Setting.Lacks (setting : Setting) (key : MemoKey) : Prop :=
  ∃ p ∈ setting.declarations.projections, p.id = key.projection ∧
    p.direction? key.direction = none

/-- Every declared projection stands at the position that its id says. -/
def Declarations.Indexed (d : Declarations) : Prop := ∀ p ∈ d.projections, d.get? p.id = some p

theorem Setting.Offers.not_lacks {setting : Setting} {key : MemoKey}
    (hd : setting.declarations.Indexed) (hoffers : setting.Offers key) : ¬ setting.Lacks key := by
  rintro ⟨q, hq, hqid, hnone⟩
  obtain ⟨p, hp, hpid, hsome⟩ := hoffers
  -- two declared projections with one id are the same
  have hpq : p = q := by
    have hsame := hd p hp
    rw [hpid, ← hqid, hd q hq] at hsame
    exact (Option.some.inj hsame).symm
  rw [hpq, hnone] at hsome
  cases hsome

namespace Progress

variable {setting : Setting} {s : Progress}

/-- **Whether an entry is allowed**, in view of what is known before it. -/
def Allows (setting : Setting) (s : Progress) : LogEntry → Prop
  | .starts run => s.Shows setting run
  | .enters key => s.memo.find? key = none ∧ setting.Offers key
  | .leaves key _ => s.active.head? = some key
  | .returns key result =>
    s.memo.find? key = some (.done result) ∨ s.memo.find? key = some .active ∧ result = key.node
  | .refuses key => s.memo.find? key = none ∨ setting.Lacks key

/-- Whether every entry of a log is allowed. -/
def Accepts (setting : Setting) : Progress → List LogEntry → Prop
  | _, [] => True
  | s, entry :: rest => s.Allows setting entry ∧ (s.after entry).Accepts setting rest

theorem accepts_append (first second : List LogEntry) :
    s.Accepts setting (first ++ second) ↔
      s.Accepts setting first ∧ (s.along first).Accepts setting second := by
  induction first generalizing s with
  | nil => exact ⟨fun h => ⟨trivial, h⟩, And.right⟩
  | cons entry rest ih =>
    rw [List.cons_append, Accepts, Accepts, ih, and_assoc]
    rfl

/-- An entry of an accepted log is allowed by what stands in front of it. -/
theorem Accepts.split {front back : List LogEntry} {entry : LogEntry}
    (h : s.Accepts setting (front ++ entry :: back)) :
    s.Accepts setting front ∧ (s.along front).Allows setting entry := by
  obtain ⟨hfront, hrest⟩ := (accepts_append front _).mp h
  exact ⟨hfront, hrest.1⟩

/-! ### What a log tells about a key -/

/-- **What is known about a key can be read off the log.** -/
structure Consistent (setting : Setting) (log : List LogEntry) : Prop where
  nodup : (LogEntry.active log).Nodup
  unknown : ∀ key, (start.along log).memo.find? key = none ↔ .enters key ∉ log
  active : ∀ key, (start.along log).memo.find? key = some .active ↔ key ∈ LogEntry.active log
  done : ∀ key id, (start.along log).memo.find? key = some (.done id) ↔ .leaves key id ∈ log
  offered : ∀ key, .enters key ∈ log → setting.Offers key

namespace Consistent

variable {front : List LogEntry} {key : MemoKey}

theorem nil : Consistent setting [] where
  nodup := List.nodup_nil
  unknown key := by
    show Memo.empty.find? key = none ↔ _
    simp
  active key := by
    show Memo.empty.find? key = some .active ↔ key ∈ []
    simp
  done key id := by
    show Memo.empty.find? key = some (.done id) ↔ _
    simp
  offered _ h := nomatch h

/-- An entry that neither enters nor leaves a body changes nothing. -/
theorem still (h : Consistent setting front) {entry : LogEntry}
    (hafter : ∀ s : Progress, s.after entry = s)
    (hactive : ∀ keys, LogEntry.activeAfter keys entry = keys)
    (henters : ∀ key, entry ≠ .enters key) (hleaves : ∀ key id, entry ≠ .leaves key id) :
    Consistent setting (front ++ [entry]) := by
  have halong : start.along (front ++ [entry]) = start.along front :=
    (along_append start front [entry]).trans (hafter _)
  have hsame : LogEntry.active (front ++ [entry]) = LogEntry.active front :=
    (LogEntry.active_append front entry).trans (hactive _)
  have hentered : ∀ key, .enters key ∈ front ++ [entry] ↔ .enters key ∈ front := fun key => by
    simp [(henters key).symm]
  have hleft : ∀ key id, .leaves key id ∈ front ++ [entry] ↔ .leaves key id ∈ front :=
    fun key id => by simp [(hleaves key id).symm]
  refine ⟨hsame ▸ h.nodup, fun key => ?_, fun key => ?_, fun key id => ?_, fun key henter => ?_⟩
  · rw [halong, hentered, h.unknown]
  · rw [halong, hsame, h.active]
  · rw [halong, hleft, h.done]
  · exact h.offered key ((hentered key).mp henter)

/-- A body that is entered was not known before. -/
theorem enters (h : Consistent setting front)
    (hunknown : (start.along front).memo.find? key = none) (hoffers : setting.Offers key) :
    Consistent setting (front ++ [.enters key]) := by
  have hmemo : ∀ k, (start.along (front ++ [.enters key])).memo.find? k =
      if key = k then some .active else (start.along front).memo.find? k := by
    intro k
    rw [along_append]
    exact Memo.find?_insert _ _ _ _
  have hactive : LogEntry.active (front ++ [.enters key]) = key :: LogEntry.active front :=
    LogEntry.active_append front _
  have hfresh : key ∉ LogEntry.active front := by
    intro hmem
    rw [(h.active key).mpr hmem] at hunknown
    cases hunknown
  -- about any other key the memo and the log still say what they said
  refine ⟨?_, fun k => ?_, fun k => ?_, fun k id => ?_, fun k henter => ?_⟩
  · rw [hactive]
    exact List.nodup_cons.mpr ⟨hfresh, h.nodup⟩
  · rw [hmemo]
    by_cases hk : key = k
    · simp [hk]
    · simp [hk, h.unknown, Ne.symm hk]
  · rw [hmemo, hactive, List.mem_cons]
    by_cases hk : key = k
    · simp [hk]
    · simp [hk, h.active, Ne.symm hk]
  · rw [hmemo]
    by_cases hk : key = k
    · -- it has no result yet
      have hnone : .leaves k id ∉ front := by
        intro hleft
        rw [← hk] at hleft
        rw [(h.done key id).mpr hleft] at hunknown
        cases hunknown
      simp [hk, hnone]
    · simp [hk, h.done]
  · rcases List.mem_append.mp henter with hold | hnew
    · exact h.offered k hold
    · obtain rfl := LogEntry.enters.inj (List.mem_singleton.mp hnew)
      exact hoffers

/-- A body that is left is the innermost active one. -/
theorem leaves (h : Consistent setting front) {result : NodeId}
    (hhead : (start.along front).active.head? = some key) :
    Consistent setting (front ++ [.leaves key result]) := by
  have hmemo : ∀ k, (start.along (front ++ [.leaves key result])).memo.find? k =
      if key = k then some (.done result) else (start.along front).memo.find? k := by
    intro k
    rw [along_append]
    exact Memo.find?_insert _ _ _ _
  have hsame : (start.along front).active = LogEntry.active front := active_along start front
  -- the key is the innermost active one, and no other one is equal to it
  obtain ⟨rest, hrest⟩ : ∃ rest, LogEntry.active front = key :: rest :=
    List.head?_eq_some_iff.mp (hsame ▸ hhead)
  have hactive : LogEntry.active (front ++ [.leaves key result]) = rest := by
    rw [LogEntry.active_append, hrest]
    rfl
  obtain ⟨hgone, hnodup⟩ := List.nodup_cons.mp (hrest ▸ h.nodup)
  have hmarked : (start.along front).memo.find? key = some .active :=
    (h.active key).mpr (hrest ▸ List.mem_cons_self)
  refine ⟨hactive ▸ hnodup, fun k => ?_, fun k => ?_, fun k id => ?_, fun k henter => ?_⟩
  · rw [hmemo]
    by_cases hk : key = k
    · -- it was entered before, and stays so
      have hentered : .enters key ∈ front := Classical.byContradiction fun hnever => by
        rw [(h.unknown key).mpr hnever] at hmarked
        cases hmarked
      simp [← hk, hentered]
    · simp [hk, h.unknown]
  · rw [hmemo, hactive]
    by_cases hk : key = k
    · simp [← hk, hgone]
    · simp [hk, h.active, hrest, Ne.symm hk]
  · rw [hmemo]
    by_cases hk : key = k
    · -- it was not left before
      have hnone : .leaves key id ∉ front := by
        intro hleft
        rw [(h.done key id).mpr hleft] at hmarked
        cases hmarked
      simp [← hk, hnone, eq_comm]
    · simp [hk, h.done, Ne.symm hk]
  · rcases List.mem_append.mp henter with hold | hnew
    · exact h.offered k hold
    · cases List.mem_singleton.mp hnew

end Consistent

/-- **The invariant holds all along an accepted log.** -/
theorem Accepts.consistent {log : List LogEntry} (h : start.Accepts setting log) :
    Consistent setting log := by
  -- from the back, since an entry is judged by what stands in front of it
  induction log using List.reverseRecOn with
  | nil => exact .nil
  | append_singleton front entry ih =>
    obtain ⟨hfront, hallowed⟩ := h.split
    have hc := ih hfront
    cases entry with
    | starts run => exact hc.still (fun _ => rfl) (fun _ => rfl) nofun nofun
    | enters key => exact hc.enters hallowed.1 hallowed.2
    | leaves key result => exact hc.leaves hallowed
    | returns key result => exact hc.still (fun _ => rfl) (fun _ => rfl) nofun nofun
    | refuses key => exact hc.still (fun _ => rfl) (fun _ => rfl) nofun nofun

/-- **An accepted log obeys the policy.** -/
theorem Accepts.policy {log : List LogEntry} (hd : setting.declarations.Indexed)
    (h : start.Accepts setting log) : LogEntry.Policy log where
  entered_once front key back hsplit := by
    obtain ⟨hfront, hunknown, -⟩ := (hsplit ▸ h).split
    exact (hfront.consistent.unknown key).mp hunknown
  refused_fresh front key back hsplit hentered := by
    obtain ⟨hfront, hunknown | hlacks⟩ := (hsplit ▸ h).split
    · exact (hfront.consistent.unknown key).mp hunknown hentered
    · exact (hfront.consistent.offered key hentered).not_lacks hd hlacks
  returns_node front key result back hsplit hactive := by
    obtain ⟨hfront, hdone | ⟨-, hnode⟩⟩ := (hsplit ▸ h).split
    · rw [(hfront.consistent.active key).mpr hactive] at hdone
      cases hdone
    · exact hnode
  returns_first front key result back hsplit hleft first := by
    obtain ⟨hfront, hdone | ⟨hactive, -⟩⟩ := (hsplit ▸ h).split
    · rw [← hfront.consistent.done, hdone]
      simp [eq_comm]
    · exact absurd ((hfront.consistent.active key).mp hactive) hleft
  active_marked front run back hsplit := by
    obtain ⟨hfront, hshows⟩ := (hsplit ▸ h).split
    have hsame : (start.along front).active = LogEntry.active front := active_along start front
    refine ⟨hfront.consistent.nodup, hsame ▸ hshows.length_activations.symm, fun key => ?_⟩
    rw [hshows.memo]
    exact hfront.consistent.active key
  done_stays front run middle later back hsplit key id hdone := by
    obtain ⟨hfront, hshows⟩ := (hsplit ▸ h).split
    have hagain : log = (front ++ .starts run :: middle) ++ .starts later :: back := by
      rw [hsplit, List.append_assoc, List.cons_append]
    obtain ⟨hlonger, hlater⟩ := (hagain ▸ h).split
    -- what was left before the first start was left before the second one
    rw [hshows.memo, hfront.consistent.done] at hdone
    rw [hlater.memo, hlonger.consistent.done]
    exact List.mem_append_left _ hdone

end Progress

end SchemaProjection
