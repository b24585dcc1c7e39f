import Playback.Proofs.Agents.Run
import Mathlib.Data.Finset.Card

/-!
The agents above an agent, one parent at a time. Agents that were there from the start may name
parents that are not there, or one another in a circle, so that going up need not end at a root. The
depth of an agent is known just if it does, and as many steps as there are records are enough to
find out.
-/

namespace Playback.Agents

namespace Tree

def above? (t : Tree) (a : Agent) : Option Agent := a.parent.bind t.agent?

def ancestor? (t : Tree) : Nat → Agent → Option Agent
  | 0, a => some a
  | n + 1, a => (t.above? a).bind (t.ancestor? n)

variable (t : Tree) (a : Agent)

theorem ancestor?_add (m n : Nat) :
    t.ancestor? (m + n) a = (t.ancestor? m a).bind (t.ancestor? n) := by
  induction m generalizing a with
  | zero => simp [ancestor?]
  | succ m ih =>
      rw [Nat.add_right_comm]
      simp only [ancestor?]
      cases t.above? a with
      | none => rfl
      | some b => exact ih b

theorem mem_of_agent? (id : String) (found : t.agent? id = some a) : a ∈ t.records :=
  List.mem_of_find?_eq_some found

theorem mem_of_ancestor? (n : Nat) (b : Agent) (member : a ∈ t.records)
    (found : t.ancestor? n a = some b) : b ∈ t.records := by
  induction n generalizing a with
  | zero =>
      obtain rfl : a = b := by simpa [ancestor?] using found
      exact member
  | succ n ih =>
      obtain ⟨c, step, more⟩ := Option.bind_eq_some_iff.mp found
      obtain ⟨p, -, present⟩ := Option.bind_eq_some_iff.mp step
      exact ih c (t.mem_of_agent? c p present) more

theorem exists_ancestor?_of_le (m n : Nat) (b : Agent) (le : m ≤ n)
    (found : t.ancestor? n a = some b) : ∃ c, t.ancestor? m a = some c := by
  rw [← Nat.add_sub_of_le le, ancestor?_add] at found
  obtain ⟨c, reached, -⟩ := Option.bind_eq_some_iff.mp found
  exact ⟨c, reached⟩

theorem ancestor?_beyond (m n : Nat) (b : Agent) (found : t.ancestor? m a = some b)
    (ends : t.above? b = none) (further : m < n) : t.ancestor? n a = none := by
  obtain ⟨k, rfl⟩ := Nat.exists_eq_add_of_lt further
  rw [Nat.add_assoc, ancestor?_add, found]
  simp [ancestor?, ends]

theorem end_unique (m n : Nat) (b c : Agent) (first : t.ancestor? m a = some b)
    (second : t.ancestor? n a = some c) (firstEnds : t.above? b = none)
    (secondEnds : t.above? c = none) : m = n ∧ b = c := by
  rcases Nat.lt_trichotomy m n with less | rfl | more
  · rw [t.ancestor?_beyond a m n b first firstEnds less] at second
    cases second
  · exact ⟨rfl, Option.some.inj (first.symm.trans second)⟩
  · rw [t.ancestor?_beyond a n m c second secondEnds more] at first
    cases first

theorem not_end_of_return (i j d : Nat) (b top : Agent) (later : i < j)
    (first : t.ancestor? i a = some b) (again : t.ancestor? j a = some b)
    (found : t.ancestor? d a = some top) (ends : t.above? top = none) : False := by
  have within : j ≤ d := by
    by_contra beyond
    rw [t.ancestor?_beyond a d j top found ends (Nat.not_le.mp beyond)] at again
    cases again
  obtain ⟨k, rfl⟩ := Nat.exists_eq_add_of_le within
  -- the end is as far above the first of the two places as above the second
  have rest : t.ancestor? k b = some top := by
    rw [ancestor?_add, again] at found
    exact found
  have sooner : t.ancestor? (i + k) a = some top := by
    rw [ancestor?_add, first]
    exact rest
  have less : i + k < j + k := Nat.add_lt_add_right later k
  rw [t.ancestor?_beyond a (i + k) (j + k) top sooner ends less] at found
  cases found

/-- Who goes up as many times as there are records comes back to one. -/
theorem exists_return (n : Nat) (b : Agent) (member : a ∈ t.records) (long : t.size ≤ n)
    (found : t.ancestor? n a = some b) :
    ∃ i j c, i < j ∧ t.ancestor? i a = some c ∧ t.ancestor? j a = some c := by
  have lands : ∀ i ∈ Finset.range (n + 1),
      t.ancestor? i a ∈ (t.records.map some).toFinset := by
    intro i within
    have le : i ≤ n := Nat.le_of_lt_succ (Finset.mem_range.mp within)
    obtain ⟨c, reached⟩ := t.exists_ancestor?_of_le a i n b le found
    rw [reached, List.mem_toFinset]
    exact List.mem_map_of_mem (t.mem_of_ancestor? a i c member reached)
  have fewer : (t.records.map some).toFinset.card < (Finset.range (n + 1)).card := by
    calc
      _ ≤ (t.records.map some).length := List.toFinset_card_le _
      _ = t.size := List.length_map some
      _ < n + 1 := Nat.lt_succ_of_le long
      _ = _ := (Finset.card_range (n + 1)).symm
  -- More steps than records: two of them end at the same one.
  obtain ⟨i, iWithin, j, jWithin, apart, same⟩ :=
    Finset.exists_ne_map_eq_of_card_lt_of_maps_to fewer lands
  have reached (k : Nat) (within : k ∈ Finset.range (n + 1)) :
      ∃ c, t.ancestor? k a = some c :=
    t.exists_ancestor?_of_le a k n b (Nat.le_of_lt_succ (Finset.mem_range.mp within)) found
  rcases Nat.lt_or_gt_of_ne apart with less | more
  · obtain ⟨c, hc⟩ := reached j jWithin
    exact ⟨i, j, c, less, same.trans hc, hc⟩
  · obtain ⟨c, hc⟩ := reached i iWithin
    exact ⟨j, i, c, more, same.symm.trans hc, hc⟩

theorem above?_of_parentless (top : Agent) (parentless : top.parent = none) :
    t.above? top = none := by
  rw [above?, parentless]
  rfl

theorem lt_size_of_end (d : Nat) (top : Agent) (member : a ∈ t.records)
    (found : t.ancestor? d a = some top) (ends : t.above? top = none) : d < t.size := by
  by_contra long
  obtain ⟨i, j, b, later, first, again⟩ :=
    t.exists_return a d top member (Nat.not_lt.mp long) found
  exact t.not_end_of_return a i j d b top later first again found ends

theorem climb_of_parentless (fuel : Nat) (parentless : a.parent = none) :
    t.climb fuel a = some (0, a) := by
  unfold climb
  rw [parentless]

theorem climb_zero_of_parent (p : String) (named : a.parent = some p) : t.climb 0 a = none := by
  unfold climb
  rw [named]

theorem climb_succ_of_parent (fuel : Nat) (p : String) (named : a.parent = some p) :
    t.climb (fuel + 1) a =
      (t.above? a).bind fun b => (t.climb fuel b).map fun (n, top) => (n + 1, top) := by
  have step : t.above? a = t.agent? p := by simp [above?, named]
  conv_lhs => unfold climb
  rw [step, named]
  change (t.agent? p).bind (fun b => (t.climb fuel b).bind fun (n, top) => some (n + 1, top)) = _
  simp only [Option.map_eq_bind, Function.comp_def]

theorem climb_eq_some_iff_of_parentless (fuel n : Nat) (top : Agent)
    (parentless : a.parent = none) : t.climb fuel a = some (n, top) ↔
      n ≤ fuel ∧ t.ancestor? n a = some top ∧ top.parent = none := by
  rw [t.climb_of_parentless a fuel parentless]
  constructor
  · intro same
    obtain ⟨rfl, rfl⟩ := Prod.mk.inj (Option.some.inj same)
    exact ⟨Nat.zero_le fuel, rfl, parentless⟩
  · intro ⟨_, found, ends⟩
    have last := t.above?_of_parentless top ends
    have own := t.above?_of_parentless a parentless
    obtain ⟨rfl, rfl⟩ := t.end_unique a 0 n a top rfl found own last
    rfl

theorem climb_eq_some_iff (fuel n : Nat) (top : Agent) :
    t.climb fuel a = some (n, top) ↔
      n ≤ fuel ∧ t.ancestor? n a = some top ∧ top.parent = none := by
  induction fuel generalizing a n with
  | zero =>
      cases named : a.parent with
      | none => exact t.climb_eq_some_iff_of_parentless a 0 n top named
      | some p =>
          simp only [t.climb_zero_of_parent a p named, reduceCtorEq, false_iff, not_and]
          intro zero found parentless
          obtain rfl := Nat.le_zero.mp zero
          rw [← Option.some.inj found, named] at parentless
          cases parentless
  | succ fuel ih =>
      cases named : a.parent with
      | none => exact t.climb_eq_some_iff_of_parentless a (fuel + 1) n top named
      | some p =>
          simp only [t.climb_succ_of_parent a fuel p named, Option.bind_eq_some_iff,
            Option.map_eq_some_iff, Prod.exists, Prod.mk.injEq]
          constructor
          · intro ⟨b, step, m, c, inner, next, same⟩
            obtain ⟨le, reached, ends⟩ := (ih b m).mp (same ▸ inner)
            rw [← next]
            refine ⟨Nat.succ_le_succ le, ?_, ends⟩
            rw [ancestor?, step]
            exact reached
          · intro ⟨le, found, ends⟩
            cases n with
            | zero =>
                rw [← Option.some.inj found, named] at ends
                cases ends
            | succ n =>
                obtain ⟨b, step, reached⟩ := Option.bind_eq_some_iff.mp found
                have inner := (ih b n).mpr ⟨Nat.le_of_succ_le_succ le, reached, ends⟩
                exact ⟨b, step, n, top, inner, rfl, rfl⟩

/-- The depth of an agent is how far it is from the record above it that names no parent, if that is
a root. -/
theorem depth_eq_some_iff (id : String) (d : Nat) :
    t.depth id = some d ↔
      ∃ a top, t.agent? id = some a ∧ t.ancestor? d a = some top ∧ top.parent = none ∧
        top.id ∈ t.roots := by
  have unfolded : t.depth id = (t.agent? id).bind fun a =>
      (t.climb t.size a).bind fun (n, top) => if top.id ∈ t.roots then some n else none := rfl
  simp only [unfolded, Option.bind_eq_some_iff, Prod.exists, climb_eq_some_iff,
    Option.ite_none_right_eq_some, Option.some.injEq]
  constructor
  · intro ⟨a, found, n, top, ⟨_, reached, ends⟩, root, same⟩
    exact ⟨a, top, found, same ▸ reached, ends, root⟩
  · intro ⟨a, top, found, reached, ends, root⟩
    -- The climb has steps enough for every way that ends.
    have short := t.lt_size_of_end a d top (t.mem_of_agent? a id found) reached
      (t.above?_of_parentless top ends)
    exact ⟨a, found, d, top, ⟨Nat.le_of_lt short, reached, ends⟩, root, rfl⟩

/-- No root is above an agent: it is not there, or going up leads to a parent that is not there, to
a record that is no root though it names no parent, or round in a circle. -/
inductive IsRootless (id : String) : Prop
  | unknown (absent : t.agent? id = none)
  | dangling {a b : Agent} {n : Nat} {p : String} (found : t.agent? id = some a)
      (reached : t.ancestor? n a = some b) (named : b.parent = some p)
      (missing : t.agent? p = none)
  | detached {a top : Agent} {n : Nat} (found : t.agent? id = some a)
      (reached : t.ancestor? n a = some top) (ends : top.parent = none)
      (unlisted : top.id ∉ t.roots)
  | circling {a b : Agent} {i j : Nat} (found : t.agent? id = some a) (later : i < j)
      (first : t.ancestor? i a = some b) (again : t.ancestor? j a = some b)

theorem exists_ancestor?_or_end (n : Nat) :
    (∃ b, t.ancestor? n a = some b) ∨
      ∃ m b, t.ancestor? m a = some b ∧ t.above? b = none := by
  induction n with
  | zero => exact .inl ⟨a, rfl⟩
  | succ n ih =>
      rcases ih with ⟨b, reached⟩ | ends
      · cases step : t.above? b with
        | none => exact .inr ⟨n, b, reached, step⟩
        | some c =>
            refine .inl ⟨c, ?_⟩
            rw [ancestor?_add, reached]
            simp [ancestor?, step]
      · exact .inr ends

theorem isRootless_of_depth (id : String) (nowhere : t.depth id = none) : t.IsRootless id := by
  cases found : t.agent? id with
  | none => exact .unknown found
  | some a =>
      have member := t.mem_of_agent? a id found
      rcases t.exists_ancestor?_or_end a t.size with ⟨b, far⟩ | ⟨n, b, reached, ends⟩
      · obtain ⟨i, j, c, later, first, again⟩ :=
          t.exists_return a t.size b member (Nat.le_refl _) far
        exact .circling found later first again
      · cases named : b.parent with
        | some p => exact .dangling found reached named (by simpa [above?, named] using ends)
        | none =>
            refine .detached found reached named fun root => ?_
            have known := (t.depth_eq_some_iff id n).mpr ⟨a, b, found, reached, named, root⟩
            rw [nowhere] at known
            cases known

theorem depth_of_isRootless (id : String) (rootless : t.IsRootless id) : t.depth id = none := by
  rw [Option.eq_none_iff_forall_ne_some]
  intro d known
  obtain ⟨a, top, found, reached, ends, root⟩ := (t.depth_eq_some_iff id d).mp known
  -- Going up ends at one record only, and that is a root.
  have last := t.above?_of_parentless top ends
  cases rootless with
  | unknown absent =>
      rw [absent] at found
      cases found
  | @dangling _ b n p other before named missing =>
      obtain rfl := Option.some.inj (found.symm.trans other)
      have stuck : t.above? b = none := by
        rw [above?, named]
        exact missing
      obtain ⟨-, rfl⟩ := t.end_unique a d n top b reached before last stuck
      rw [ends] at named
      cases named
  | @detached _ b n other before parentless unlisted =>
      obtain rfl := Option.some.inj (found.symm.trans other)
      have end? := t.above?_of_parentless b parentless
      obtain ⟨-, rfl⟩ := t.end_unique a d n top b reached before last end?
      exact unlisted root
  | @circling _ b i j other later first again =>
      obtain rfl := Option.some.inj (found.symm.trans other)
      exact t.not_end_of_return a i j d b top later first again reached last

theorem depth_eq_none_iff (id : String) : t.depth id = none ↔ t.IsRootless id :=
  ⟨t.isRootless_of_depth id, t.depth_of_isRootless id⟩

theorem ids_insert (b : Agent) :
    (t.insert b).ids = if t.contains b.id then t.ids else t.ids ++ [b.id] := by
  unfold insert
  split
  · simp only [ids, List.map_map]
    apply List.map_congr_left
    intro c _
    by_cases same : c.id = b.id <;> simp [same]
  · simp [ids]

theorem nodup_ids_insert (b : Agent) (distinct : t.ids.Nodup) : (t.insert b).ids.Nodup := by
  rw [ids_insert]
  split
  · exact distinct
  · rename_i absent
    rw [contains_iff_mem_ids] at absent
    simpa using List.Nodup.concat absent distinct

theorem nodup_ids_ofAgents (agents : List Agent) : (ofAgents agents).ids.Nodup := by
  unfold ofAgents
  have go (u : Tree) (distinct : u.ids.Nodup) : (agents.foldl (fun t a =>
      (if a.parent.isNone then { t with roots := t.roots ++ [a.id] } else t).insert a)
      u).ids.Nodup := by
    induction agents generalizing u with
    | nil => exact distinct
    | cons b agents ih =>
        apply ih
        apply nodup_ids_insert
        split <;> exact distinct
  exact go empty List.nodup_nil

theorem nodup_ids_next (stamp : Stamp) (e : Event) (distinct : t.ids.Nodup) :
    (t.next stamp e).ids.Nodup := by
  rcases t.next_cases stamp e with ⟨-, same⟩ |
    ⟨id, parent, name, description, task, rfl, absent, started⟩ | ⟨-, -, changed⟩
  · rw [same]
    exact distinct
  · rw [started]
    exact t.nodup_ids_addAgent stamp id parent name description task absent distinct
  · rw [changed]
    change (t.modify e.agent (·.receive stamp e)).ids.Nodup
    rw [ids_modify t e.agent _ fun a => (a.receive_links stamp e).1]
    exact distinct

end Tree

namespace Store

theorem nodup_ids_run (autoExpand : Bool) (clock : Instant) (seed : Nat) (agents : List Agent)
    (ops : List Operation) : ((ofAgents autoExpand clock seed agents).run ops).tree.ids.Nodup :=
  holds_run (fun t _ => t.ids.Nodup) (fun t stamp e _ => t.nodup_ids_next stamp e)
    (fun _ => List.nodup_nil) _ ops [] (Tree.nodup_ids_ofAgents agents)

/-- Whatever agents are there from the start and whatever comes, the depth of an agent is the number
of parents from it up to one that names none and is a root, however many these are. It is not known
if there is no such way, because the agent is not there, or a parent is not there, or the end of the
way is no root, or there is no end. -/
theorem depth_of_run (autoExpand : Bool) (clock : Instant) (seed : Nat) (agents : List Agent)
    (ops : List Operation) :
    let t := ((ofAgents autoExpand clock seed agents).run ops).tree
    t.ids.Nodup ∧ ∀ id,
      (∀ d, t.depth id = some d ↔
        ∃ a top, t.agent? id = some a ∧ t.ancestor? d a = some top ∧ top.parent = none ∧
          top.id ∈ t.roots) ∧
      (t.depth id = none ↔ t.IsRootless id) ∧
      ∀ d a top, t.agent? id = some a → t.ancestor? d a = some top → top.parent = none →
        d < t.size := by
  intro t
  refine ⟨nodup_ids_run autoExpand clock seed agents ops, fun id => ⟨?_, ?_, ?_⟩⟩
  · exact t.depth_eq_some_iff id
  · exact t.depth_eq_none_iff id
  · intro d a top found reached ends
    exact t.lt_size_of_end a d top (t.mem_of_agent? a id found) reached
      (t.above?_of_parentless top ends)

theorem depth_of_run_of_started :
    let agent (id : String) (parent : Option String) : Agent :=
      { Agent.start id "" "" default with parent := parent }
    let agents := [agent "a" (some "b"), agent "b" none, agent "d" (some "e"), agent "e" (some "d")]
    let t := ((ofAgents false default 0 agents).run
      [.handle (.spawn "c" (some "a") "" "" "")]).tree
    t.depth "c" = some 2 ∧ t.IsRootless "d" ∧ 2 < t.size := by
  intro agent agents t
  have depths := (depth_of_run false default 0 agents
    [.handle (.spawn "c" (some "a") "" "" "")]).2
  obtain ⟨known, -, short⟩ := depths "c"
  have way : ∃ a top, t.agent? "c" = some a ∧ t.ancestor? 2 a = some top ∧ top.parent = none ∧
      top.id ∈ t.roots := ⟨_, agent "b" none, rfl, rfl, rfl, by decide⟩
  have ⟨a, top, found, reached, ends, _⟩ := way
  exact ⟨(known 2).mpr way, (depths "d").2.1.mp (by decide), short 2 a top found reached ends⟩

end Store

end Playback.Agents
