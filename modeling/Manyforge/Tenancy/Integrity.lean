import Manyforge.Tenancy.Hierarchy

/-!
# The hierarchy is kept

Each write to the trees, taken alone: what it does to the parents, and that the closure, the roots
and the depths stay as they are to be, given what the call has checked before.
-/
namespace Manyforge.Tenancy

open Table Forest Calls

namespace Tenants

variable {db db' : Tenants}

/-! ### The parents after a write -/

variable {d : UUID} {b : Business} {p x newParent node : UUID} {now : Timestamp}
  {id root a : UUID} {n : Nat}

theorem parentOf_of_unknown (unknown : ¬ db.Known d) : db.parentOf d = none := by
  cases found : db.business? d with
  | none => rw [parentOf, found, Option.bind_none]
  | some b => exact absurd (known_iff.mpr ⟨b, found⟩) unknown

theorem known_append (rows : db'.businesses = db.businesses ++ [b]) :
    db'.Known d ↔ db.Known d ∨ d = b.id := by
  simp only [Known, rows, List.mem_append, List.mem_singleton, or_and_right, exists_or,
    exists_eq_left]
  exact or_congr_right eq_comm

theorem parentOf_append (fresh : ¬ db.Known b.id) (rows : db'.businesses = db.businesses ++ [b])
    (d : UUID) : db'.parentOf d = if d = b.id then b.parentId else db.parentOf d := by
  simp only [parentOf, business?, rows, List.find?_append]
  split
  next same =>
    subst same
    have none : db.businesses.find? (·.id == b.id) = none := by
      rw [List.find?_eq_none]
      intro other member isOther
      exact fresh ⟨other, member, by simpa using isOther⟩
    simp [none]
  next other =>
    have skipped : (b.id == d) = false := by simpa using Ne.symm other
    simp [skipped]

theorem parentOf_append_sub (fresh : ¬ db.Known b.id) (rows : db'.businesses = db.businesses ++ [b])
    (sub : b.parentId = some p) : db'.parentOf = graft db.parentOf b.id p := by
  funext d
  rw [parentOf_append fresh rows]
  split
  next same => rw [same, graft_self, sub]
  next other => rw [graft_of_ne _ _ other]

theorem parentOf_append_master (fresh : ¬ db.Known b.id)
    (rows : db'.businesses = db.businesses ++ [b]) (master : b.parentId = none) :
    db'.parentOf = db.parentOf := by
  funext d
  rw [parentOf_append fresh rows]
  split
  next same => rw [same, master, parentOf_of_unknown fresh]
  next => rfl

def links (rows : List Business) : List (UUID × Option UUID × UUID) :=
  rows.map fun b => (b.id, b.parentId, b.tenantRootId)

theorem parentOf_of_links (same : links db'.businesses = links db.businesses) :
    db'.parentOf = db.parentOf := by
  have read (db : Tenants) (d : UUID) :
      db.parentOf d = ((links db.businesses).find? (·.1 == d)).bind (·.2.1) := by
    simp only [parentOf, business?, links, List.find?_map, Option.bind_map]
    rfl
  funext d
  rw [read, same, ← read]

theorem known_of_links (same : links db'.businesses = links db.businesses) (d : UUID) :
    db'.Known d ↔ db.Known d := by
  have read (db : Tenants) : db.Known d ↔ d ∈ (links db.businesses).map (·.1) := by
    simp [Known, links]
  rw [read, same, ← read]

theorem parentOf_changed {change : Business → Business} {chosen : Business → Bool}
    (rows : db'.businesses = updateWhere chosen change db.businesses) (known : db.Known x)
    (id : ∀ b, (change b).id = b.id)
    (moved : ∀ b ∈ db.businesses, b.id = x → chosen b = true ∧ (change b).parentId = some p)
    (kept : ∀ b ∈ db.businesses, b.id ≠ x → chosen b = true → (change b).parentId = b.parentId) :
    db'.parentOf = graft db.parentOf x p := by
  funext d
  have found : db'.business? d = (db.business? d).map fun b => if chosen b then change b else b := by
    simp only [business?, rows]
    exact find?_updateWhere _ fun b _ => by rw [id]
  by_cases same : d = x
  · subst same
    obtain ⟨b, isFound⟩ := known_iff.mp known
    have isId : b.id = d := by simpa using List.find?_some isFound
    obtain ⟨isChosen, parent⟩ := moved b (List.mem_of_find?_eq_some isFound) isId
    simp [parentOf, found, isFound, isChosen, parent]
  · rw [graft_of_ne _ _ same, parentOf, parentOf, found]
    cases isFound : db.business? d with
    | none => rfl
    | some b =>
      have isId : b.id = d := by simpa using List.find?_some isFound
      simp only [Option.map_some, Option.bind_some]
      split
      next isChosen =>
        exact kept b (List.mem_of_find?_eq_some isFound) (isId ▸ same) isChosen
      next => rfl

theorem parentOf_reparented (rows : db'.businesses = reparented node newParent now db.businesses)
    (known : db.Known node) : db'.parentOf = graft db.parentOf node newParent :=
  parentOf_changed rows known (fun _ => rfl) (fun b _ isNode => ⟨by simp [isNode], rfl⟩)
    fun b _ other isChosen => absurd (by simpa using isChosen) other

/-! ### The hierarchy is kept -/

section

variable (inv : db.Hierarchy)

include inv

theorem Hierarchy.of_links (same : links db'.businesses = links db.businesses)
    (closure : db'.closure = db.closure) (memberships : db'.memberships = db.memberships) :
    db'.Hierarchy := by
  have parents := parentOf_of_links same
  have known := known_of_links same
  refine ⟨?_, ?_, ?_, by rw [parents]; exact inv.bounded, ?_, ?_, ?_⟩
  · exact inv.ids.of_columns Prod.fst (fun _ => rfl) same
  · intro d e
    rw [known, known, parents]
    exact inv.upward d e
  · intro a d n
    rw [known, parents, ← inv.closure a d n, Lists, closure, Lists]
  · -- The root column is one of the links.
    intro b member
    have link : (b.id, b.parentId, b.tenantRootId) ∈ links db.businesses := by
      rw [← same]
      exact List.mem_map_of_mem member
    obtain ⟨old, old_mem, columns⟩ := List.mem_map.mp link
    simp only [Prod.mk.injEq] at columns
    rw [parents, ← columns.1, ← columns.2.2]
    exact inv.roots old old_mem
  · rw [closure, parents]
    exact inv.paths
  · rw [memberships, parents]
    exact fun m member => ⟨(known _).mpr (inv.members m member).1, (inv.members m member).2⟩

theorem Hierarchy.rooted_of_key (key : db.hasKey id root = true) :
    db.Known id ∧ Rooted db.parentOf id root := by
  obtain ⟨b, member, rfl, rfl⟩ := hasKey_iff.mp key
  exact ⟨⟨b, member, rfl⟩, inv.roots b member⟩

theorem Hierarchy.lists_iff (known : db.Known d) : (∃ n, db.Lists a d n) ↔ Below db.parentOf a d :=
  inv.closure.below_iff known

theorem Hierarchy.not_below_unknown (unknown : ¬ db.Known x) (known : db.Known d) :
    ¬ Below db.parentOf x d :=
  fun ⟨_, reached⟩ => unknown (up_node inv.upward known reached)

theorem Hierarchy.known_of_up (reached : up db.parentOf (n + 1) d = some a) :
    db.Known d ∧ db.Known a := by
  have known : db.Known d := by
    by_contra unknown
    simp [up, parentOf_of_unknown unknown] at reached
  exact ⟨known, up_node inv.upward known reached⟩

theorem Hierarchy.known_of_path {c : Path} (member : c ∈ db.closure) : db.Known c.descendantId :=
  ((inv.closure _ _ _).mp ⟨c, member, rfl, rfl, rfl⟩).1

theorem Hierarchy.master {creator membership : UUID} {name : String}
    (call : db.createMaster creator id membership name now = .ok db') : db'.Hierarchy := by
  obtain ⟨owner, -, fresh, rfl⟩ := createMaster_ok call
  generalize made : ({ db with
    businesses := db.businesses ++ [⟨id, none, id, name, .active, none, now⟩]
    closure := db.closure ++ [⟨id, id, 0, id⟩]
    memberships := db.memberships ++ [⟨membership, creator, id, id, owner, some creator⟩] } :
      Tenants) = db'
  have rows : db'.businesses = db.businesses ++ [⟨id, none, id, name, .active, none, now⟩] := by
    rw [← made]
  have parents : db'.parentOf = db.parentOf := parentOf_append_master fresh rows rfl
  have known (d : UUID) : db'.Known d ↔ db.Known d ∨ d = id := known_append rows
  have alone : Rooted db.parentOf id id := ⟨.refl id, parentOf_of_unknown fresh⟩
  refine ⟨?_, ?_, ?_, by rw [parents]; exact inv.bounded, ?_, ?_, ?_⟩
  · rw [rows]
    exact inv.ids.append_fresh fun b member same => fresh ⟨b, member, same⟩
  · rw [parents]
    intro d e isKnown above
    rcases (known d).mp isKnown with old | rfl
    · exact (known e).mpr (.inl (inv.upward d e old above))
    · rw [parentOf_of_unknown fresh] at above
      cases above
  · intro a d n
    rw [parents, known, ← inv.closure.insert (parentOf_of_unknown fresh) a d n, ← made]
    simp only [Lists, List.mem_append, List.mem_singleton, or_and_right, exists_or, exists_eq_left]
    exact or_congr_right ⟨fun ⟨h, i, j⟩ => ⟨h.symm, i.symm, j.symm⟩,
      fun ⟨h, i, j⟩ => ⟨h.symm, i.symm, j.symm⟩⟩
  · rw [rows, parents]
    intro b member
    rcases mem_inserted.mp member with old | rfl
    · exact inv.roots b old
    · exact alone
  · rw [parents, ← made]
    intro c member
    rcases mem_inserted.mp member with old | rfl
    · exact inv.paths c old
    · exact alone
  · rw [parents]
    intro m member
    rw [← made] at member
    rcases mem_inserted.mp member with old | rfl
    · exact ⟨(known _).mpr (.inl (inv.members m old).1), (inv.members m old).2⟩
    · exact ⟨(known _).mpr (.inr rfl), alone⟩

end

variable {parent child : UUID}

theorem mem_childPaths {closure : List Path} {c : Path} :
    c ∈ childPaths closure parent root child ↔ ∃ upper ∈ closure, upper.descendantId = parent ∧
      c = ⟨upper.ancestorId, child, upper.depth + 1, root⟩ := by
  simp only [childPaths, List.mem_map, List.mem_filter, beq_iff_eq, and_assoc]
  exact exists_congr fun upper => and_congr_right fun _ => and_congr_right fun _ => eq_comm

theorem lists_sub :
    ({ db with closure := db.closure ++ [⟨child, child, 0, root⟩] ++
      childPaths db.closure parent root child } : Tenants).Lists a d n ↔
      db.Lists a d n ∨ a = child ∧ d = child ∧ n = 0 ∨
        d = child ∧ ∃ i, db.Lists a parent i ∧ n = i + 1 := by
  constructor
  · rintro ⟨c, member, rfl, rfl, rfl⟩
    rw [List.mem_append, List.mem_append] at member
    rcases member with (old | new) | below
    · exact .inl ⟨c, old, rfl, rfl, rfl⟩
    · obtain rfl := List.mem_singleton.mp new
      exact .inr (.inl ⟨rfl, rfl, rfl⟩)
    · obtain ⟨upper, row, atParent, rfl⟩ := mem_childPaths.mp below
      exact .inr (.inr ⟨rfl, upper.depth, ⟨upper, row, rfl, atParent, rfl⟩, rfl⟩)
  · rintro (⟨c, old, rfl, rfl, rfl⟩ | ⟨rfl, rfl, rfl⟩ | ⟨rfl, i, ⟨upper, row, rfl, rfl, rfl⟩, rfl⟩)
    · exact ⟨c, List.mem_append_left _ (List.mem_append_left _ old), rfl, rfl, rfl⟩
    · refine ⟨_, List.mem_append_left _ List.mem_concat_self, ?_⟩
      exact ⟨rfl, rfl, rfl⟩
    · refine ⟨_, List.mem_append_right _ (mem_childPaths.mpr ⟨upper, row, rfl, rfl⟩), ?_⟩
      exact ⟨rfl, rfl, rfl⟩

theorem Hierarchy.sub (inv : db.Hierarchy) {name : String}
    (call : db.writeSub parent root child name now = .ok db')
    (room : ∀ a n, up db.parentOf n parent = some a → n + 1 ≤ maxDepth) : db'.Hierarchy := by
  obtain ⟨fresh, key, rfl⟩ := writeSub_ok call
  obtain ⟨knownParent, rootedParent⟩ := inv.rooted_of_key key
  generalize made : ({ db with
    businesses := db.businesses ++ [⟨child, some parent, root, name, .active, none, now⟩]
    closure := db.closure ++ [⟨child, child, 0, root⟩] ++
      childPaths (db.closure ++ [⟨child, child, 0, root⟩]) parent root child } : Tenants) = db'
  have rows : db'.businesses =
      db.businesses ++ [⟨child, some parent, root, name, .active, none, now⟩] := by
    rw [← made]
  have parents : db'.parentOf = graft db.parentOf child parent := parentOf_append_sub fresh rows rfl
  have known (d : UUID) : db'.Known d ↔ db.Known d ∨ d = child := known_append rows
  have outside {d : UUID} (old : db.Known d) : ¬ Below db.parentOf child d :=
    inv.not_below_unknown fresh old
  have rooted : Rooted db'.parentOf child root := by
    rw [parents]
    exact rootedParent.graft_inside inv.bounded.acyclic (outside knownParent) (.refl child)
  have kept {d r : UUID} (old : db.Known d) (was : Rooted db.parentOf d r) :
      Rooted db'.parentOf d r := by
    rw [parents]
    exact was.graft (outside old)
  have ofParent : childPaths (db.closure ++ [⟨child, child, 0, root⟩]) parent root child =
      childPaths db.closure parent root child := by
    have other : (child == parent) = false := by
      simpa using fun same : child = parent => fresh (same ▸ knownParent)
    simp [childPaths, other]
  have fits : Fits db.parentOf maxDepth child parent := by
    refine ⟨outside knownParent, maxDepth - 1, 0, fun a n reached => ?_, fun d n reached => ?_, ?_⟩
    · have := room a n reached
      omega
    · cases n with
      | zero => exact le_rfl
      | succ n => exact absurd (inv.known_of_up reached).2 fresh
    · simp [maxDepth]
  refine ⟨?_, ?_, ?_, by rw [parents]; exact inv.bounded.graft fits, ?_, ?_, ?_⟩
  · rw [rows]
    exact inv.ids.append_fresh fun b member same => fresh ⟨b, member, same⟩
  · rw [parents]
    intro d e isKnown above
    by_cases new : d = child
    · rw [new, graft_self] at above
      exact (known e).mpr (.inl (Option.some.inj above ▸ knownParent))
    · rw [graft_of_ne _ _ new] at above
      have old : db.Known d := ((known d).mp isKnown).resolve_right new
      exact (known e).mpr (.inl (inv.upward d e old above))
  · intro a d n
    rw [parents, known, ← inv.closure.leaf inv.upward fresh knownParent a d n, ← made, ofParent]
    exact lists_sub
  · rw [rows]
    intro b member
    rcases mem_inserted.mp member with old | rfl
    · exact kept ⟨b, old, rfl⟩ (inv.roots b old)
    · exact rooted
  · intro c member
    rw [← made, ofParent, List.mem_append, List.mem_append] at member
    rcases member with (old | new) | below
    · exact kept (inv.known_of_path old) (inv.paths c old)
    · obtain rfl := List.mem_singleton.mp new
      exact rooted
    · obtain ⟨-, -, -, rfl⟩ := mem_childPaths.mp below
      exact rooted
  · intro m member
    rw [← made] at member
    have old := inv.members m member
    exact ⟨(known _).mpr (.inl old.1), kept old.1 old.2⟩

/-! ### A subtree under a new parent -/

/-- The root that a row of `id` carries after `x` was hung under a business of tenant `root`. -/
def Carries (db : Tenants) (x root id r : UUID) : Prop :=
  (Below db.parentOf x id → r = root) ∧ (¬ Below db.parentOf x id → Rooted db.parentOf id r)

/-- The closure rows after `x` was hung under `p`. -/
def ListsGrafted (db : Tenants) (x p a d : UUID) (n : Nat) : Prop :=
  db.Lists a d n ∧ ((∃ k, db.Lists x d k) → ∃ k, db.Lists x a k) ∨
    ∃ i j, db.Lists a p i ∧ db.Lists x d j ∧ n = i + j + 1

theorem Carries.rooted {r : UUID} (carries : db.Carries x root id r)
    (parents : db'.parentOf = graft db.parentOf x p) (above : Rooted db.parentOf p root)
    (acyclic : Acyclic db.parentOf) (outside : ¬ Below db.parentOf x p) :
    Rooted db'.parentOf id r := by
  rw [parents]
  by_cases inside : Below db.parentOf x id
  · rw [carries.1 inside]
    exact above.graft_inside acyclic outside inside
  · exact (carries.2 inside).graft inside

theorem upward_grafted (upward : ∀ d e, db.Known d → db.parentOf d = some e → db.Known e)
    (known : ∀ d, db'.Known d ↔ db.Known d) (isKnown : db.Known p) :
    ∀ d e, db'.Known d → graft db.parentOf x p d = some e → db'.Known e := by
  intro d e was above
  by_cases moved : d = x
  · rw [moved, graft_self] at above
    exact (known e).mpr (Option.some.inj above ▸ isKnown)
  · rw [graft_of_ne _ _ moved] at above
    exact (known e).mpr (upward d e ((known d).mp was) above)

/-- Both a move and a merge hang a business under another one. -/
theorem Hierarchy.grafted (inv : db.Hierarchy) (known : ∀ d, db'.Known d ↔ db.Known d)
    (ids : UniqueOn (·.id) db'.businesses) (rooted : db.Known p ∧ Rooted db.parentOf p root)
    (fits : Fits db.parentOf maxDepth x p) (parents : db'.parentOf = graft db.parentOf x p)
    (lists : ∀ a d n, db'.Lists a d n ↔ db.ListsGrafted x p a d n)
    (roots : ∀ b ∈ db'.businesses, db.Carries x root b.id b.tenantRootId)
    (paths : ∀ c ∈ db'.closure, db.Carries x root c.descendantId c.tenantRootId)
    (members : ∀ m ∈ db'.memberships, db.Known m.businessId ∧
      db.Carries x root m.businessId m.tenantRootId) : db'.Hierarchy := by
  have acyclic := inv.bounded.acyclic
  have carried {id r : UUID} (carries : db.Carries x root id r) : Rooted db'.parentOf id r :=
    carries.rooted parents rooted.2 acyclic fits.outside
  refine ⟨ids, ?_, ?_, by rw [parents]; exact inv.bounded.graft fits,
    fun b member => carried (roots b member), fun c member => carried (paths c member),
    fun m member => ⟨(known _).mpr (members m member).1, carried (members m member).2⟩⟩
  · rw [parents]
    exact upward_grafted inv.upward known rooted.1
  · intro a d n
    rw [lists, known, parents]
    exact inv.closure.graft acyclic inv.upward rooted.1 fits.outside a d n

theorem mem_descendants : d ∈ (db.closure.filter (·.ancestorId == node)).map (·.descendantId) ↔
    ∃ k, db.Lists node d k := by
  simp only [List.mem_map, List.mem_filter, beq_iff_eq, Lists]
  constructor
  · rintro ⟨c, ⟨member, isNode⟩, isD⟩
    exact ⟨c.depth, c, member, isNode, isD, rfl⟩
  · rintro ⟨_, c, member, isNode, isD, -⟩
    exact ⟨c, ⟨member, isNode⟩, isD⟩

theorem mem_detached {c : Path} : c ∈ db.detached node ↔ c ∈ db.closure ∧
    ((∃ k, db.Lists node c.descendantId k) → ∃ k, db.Lists node c.ancestorId k) := by
  simp only [detached, List.mem_filter, Bool.not_and, Bool.or_eq_true, Bool.not_eq_true',
    Bool.not_not]
  rw [← Bool.not_eq_true, List.contains_iff_mem, List.contains_iff_mem, mem_descendants,
    mem_descendants, imp_iff_not_or]

theorem mem_crossPaths {supers subs : List Path} {tenant : UUID} {c : Path} :
    c ∈ crossPaths supers subs tenant ↔ ∃ super ∈ supers, ∃ sub ∈ subs,
      c = ⟨super.ancestorId, sub.descendantId, super.depth + sub.depth + 1, tenant⟩ := by
  simp [crossPaths, eq_comm]

theorem Carries.of_rooted {r : UUID} (rooted : Rooted db.parentOf id r)
    (rootedNode : Rooted db.parentOf x root) : db.Carries x root id r :=
  ⟨fun inside => (rooted.below inside).unique rootedNode, fun _ => rooted⟩

theorem Carries.of_below (below : Below db.parentOf x id) : db.Carries x root id root :=
  ⟨fun _ => rfl, fun outside => absurd below outside⟩

theorem lists_moved {tenant : UUID} (outside : ¬ ∃ k, db.Lists node newParent k)
    (self : ∃ k, db.Lists node node k) :
    ({ db with closure := db.detached node ++ db.movedPaths node newParent tenant } : Tenants).Lists
      a d n ↔ db.ListsGrafted node newParent a d n := by
  constructor
  · rintro ⟨c, member, rfl, rfl, rfl⟩
    rcases List.mem_append.mp member with kept | new
    · obtain ⟨row, cond⟩ := mem_detached.mp kept
      exact .inl ⟨⟨c, row, rfl, rfl, rfl⟩, cond⟩
    · obtain ⟨super, isSuper, sub, isSub, rfl⟩ := mem_crossPaths.mp new
      simp only [List.mem_filter, mem_detached, beq_iff_eq] at isSuper isSub
      exact .inr ⟨super.depth, sub.depth, ⟨super, isSuper.1.1, rfl, isSuper.2, rfl⟩,
        ⟨sub, isSub.1.1, isSub.2, rfl, rfl⟩, rfl⟩
  · rintro (⟨⟨c, row, rfl, rfl, rfl⟩, cond⟩ |
      ⟨i, j, ⟨super, upper, rfl, atParent, rfl⟩, ⟨sub, lower, atNode, rfl, rfl⟩, rfl⟩)
    · exact ⟨c, List.mem_append_left _ (mem_detached.mpr ⟨row, cond⟩), rfl, rfl, rfl⟩
    · -- The rows above the new parent and those below the node are among the kept ones.
      have isSuper : super ∈ db.detached node := by
        refine mem_detached.mpr ⟨upper, fun inside => ?_⟩
        rw [atParent] at inside
        exact absurd inside outside
      have isSub : sub ∈ db.detached node := by
        refine mem_detached.mpr ⟨lower, fun _ => ?_⟩
        rw [atNode]
        exact self
      have new : (⟨super.ancestorId, sub.descendantId, super.depth + sub.depth + 1, tenant⟩ : Path) ∈
          db.movedPaths node newParent tenant :=
        mem_crossPaths.mpr ⟨super, List.mem_filter.mpr ⟨isSuper, by simpa using atParent⟩, sub,
          List.mem_filter.mpr ⟨isSub, by simpa using atNode⟩, rfl⟩
      exact ⟨_, List.mem_append_right _ new, rfl, rfl, rfl⟩

theorem mem_reparented {rows : List Business} {b' : Business}
    (member : b' ∈ reparented node newParent now rows) :
    ∃ b ∈ rows, b'.id = b.id ∧ b'.tenantRootId = b.tenantRootId := by
  obtain ⟨b, old, rfl⟩ := mem_updateWhere.mp member
  refine ⟨b, old, ?_⟩
  split
  · exact ⟨rfl, rfl⟩
  · exact ⟨rfl, rfl⟩

theorem ids_reparented (node newParent : UUID) (now : Timestamp) (rows : List Business) :
    (reparented node newParent now rows).map (·.id) = rows.map (·.id) :=
  map_updateWhere _ _ fun _ _ => rfl

theorem known_of_ids (same : db'.businesses.map (·.id) = db.businesses.map (·.id)) (d : UUID) :
    db'.Known d ↔ db.Known d := by
  have read (db : Tenants) : db.Known d ↔ d ∈ db.businesses.map (·.id) := by
    simp [Known]
  rw [read, same, ← read]

section

variable (inv : db.Hierarchy)

include inv

/-- The keys of the new rows say that the tenant of the call is still that of both businesses. -/
theorem moveBusiness_tenant {tenant : UUID}
    (call : db.moveBusiness node newParent tenant now = .ok db') (knownNode : db.Known node)
    (knownParent : db.Known newParent) :
    Rooted db.parentOf node tenant ∧ Rooted db.parentOf newParent tenant := by
  obtain ⟨keys, -, -⟩ := moveBusiness_ok call
  have self (d : UUID) (known : db.Known d) : db.Lists d d 0 := (inv.closure d d 0).mpr ⟨known, rfl⟩
  obtain ⟨super, upper, fromParent, atParent, -⟩ := self newParent knownParent
  obtain ⟨sub, lower, atNode, intoNode, -⟩ := self node knownNode
  have isSuper : super ∈ (db.detached node).filter (·.descendantId == newParent) := by
    refine List.mem_filter.mpr ⟨mem_detached.mpr ⟨upper, ?_⟩, by simpa using atParent⟩
    rw [atParent, fromParent]
    exact id
  have isSub : sub ∈ (db.detached node).filter (·.ancestorId == node) := by
    refine List.mem_filter.mpr ⟨mem_detached.mpr ⟨lower, fun _ => ?_⟩, by simpa using atNode⟩
    rw [atNode]
    exact ⟨0, self node knownNode⟩
  have found := keys _ (mem_crossPaths.mpr ⟨super, isSuper, sub, isSub, rfl⟩)
  simp only [fromParent, intoNode] at found
  exact ⟨(inv.rooted_of_key found.2).2, (inv.rooted_of_key found.1).2⟩

/-- A move to where it fits keeps the hierarchy. -/
theorem Hierarchy.move {tenant : UUID} (call : db.moveBusiness node newParent tenant now = .ok db')
    (knownNode : db.Known node) (knownParent : db.Known newParent)
    (fits : Fits db.parentOf maxDepth node newParent) : db'.Hierarchy := by
  obtain ⟨rootedNode, rootedParent⟩ :=
    moveBusiness_tenant inv call knownNode knownParent
  obtain ⟨-, -, rfl⟩ := moveBusiness_ok call
  refine inv.grafted (known_of_ids (ids_reparented ..)) ?_ ⟨knownParent, rootedParent⟩ fits
    (parentOf_reparented rfl knownNode) (fun a d n => ?_) ?_ ?_ ?_
  · rw [UniqueOn, ids_reparented]
    exact inv.ids
  · refine lists_moved ?_ ?_
    · rw [inv.lists_iff knownParent]
      exact fits.outside
    · rw [inv.lists_iff knownNode]
      exact .refl node
  · intro b member
    obtain ⟨old, old_mem, id, root⟩ := mem_reparented member
    rw [id, root]
    exact .of_rooted (inv.roots old old_mem) rootedNode
  · intro c member
    rcases List.mem_append.mp member with kept | new
    · exact .of_rooted (inv.paths c (mem_detached.mp kept).1) rootedNode
    · obtain ⟨super, -, sub, isSub, rfl⟩ := mem_crossPaths.mp new
      simp only [List.mem_filter, mem_detached, beq_iff_eq] at isSub
      have known := inv.known_of_path isSub.1.1
      exact .of_below ((inv.lists_iff known).mp ⟨sub.depth, sub, isSub.1.1, isSub.2, rfl, rfl⟩)
  · exact fun m member => ⟨(inv.members m member).1, .of_rooted (inv.members m member).2 rootedNode⟩

theorem Hierarchy.status (node : UUID) (status : BusinessStatus)
    (now : Timestamp) : (db.setSubtreeStatus node status now).Hierarchy :=
  inv.of_links (map_updateWhere _ _ fun _ _ => rfl) rfl rfl

theorem Hierarchy.delete {actor : UUID} (call : db.deleteBusiness actor node now = .ok db') :
    db'.Hierarchy := by
  simp only [deleteBusiness, ↓guard_ok, bind_ok, pure_ok] at call
  obtain ⟨_, -, -, rfl⟩ := call
  exact inv.of_links (map_updateWhere _ _ fun _ _ => rfl) rfl rfl

/-! ### What the checks ensure -/

theorem loadVisible_ok {actor : UUID} (visible : db.loadVisible actor id = .ok b) :
    b.id = id ∧ db.Known b.id ∧ db.Known b.tenantRootId := by
  obtain ⟨member, id⟩ := business?_some (loadVisible_some visible)
  obtain ⟨n, reached⟩ := (inv.roots b member).1
  exact ⟨id, ⟨b, member, rfl⟩, up_node inv.upward ⟨b, member, rfl⟩ reached⟩

omit inv in
theorem depthFromRoot_some {descendant : UUID} {depth : Nat}
    (found : db.depthFromRoot descendant root = some depth) : db.Lists root descendant depth := by
  obtain ⟨c, isFound, rfl⟩ := Option.map_eq_some_iff.mp found
  obtain ⟨row, ancestor, isDescendant⟩ := of_find?_keys isFound
  exact ⟨c, row, ancestor, isDescendant, rfl⟩

omit inv in
theorem le_foldr_max {depths : List Nat} (member : n ∈ depths) : n ≤ depths.foldr max 0 :=
  Nat.le_of_lt_succ (lt_freshKey member)

omit inv in
theorem le_subtreeHeight (listed : db.Lists node d n) : n ≤ db.subtreeHeight node := by
  obtain ⟨c, member, atNode, -, rfl⟩ := listed
  exact le_foldr_max (List.mem_map_of_mem (List.mem_filter.mpr ⟨member, by simpa using atNode⟩))

theorem Hierarchy.le_depth {depth : Nat} (listed : db.Lists root d depth)
    (isRoot : db.parentOf root = none) (reached : up db.parentOf n d = some a) : n ≤ depth := by
  have toRoot := ((inv.closure root d depth).mp listed).2
  by_contra more
  obtain ⟨k, rfl⟩ : ∃ k, n = depth + (k + 1) := ⟨n - depth - 1, by omega⟩
  rw [up_add, toRoot, Option.bind_some, up, isRoot, Option.bind_none] at reached
  cases reached

theorem Hierarchy.le_height (reached : up db.parentOf n d = some node) :
    n ≤ db.subtreeHeight node := by
  cases n with
  | zero => exact Nat.zero_le _
  | succ n => exact le_subtreeHeight ((inv.closure _ _ _).mpr ⟨(inv.known_of_up reached).1, reached⟩)

theorem checkSub_room {actor parent : UUID} (call : db.checkSub actor parent root = .ok ())
    (rooted : Rooted db.parentOf parent root) (reached : up db.parentOf n parent = some a) :
    n + 1 ≤ maxDepth := by
  obtain ⟨_, -, call⟩ := bind_ok.mp call
  split at call
  · cases call
  next depth found =>
  split at call
  · cases call
  next small =>
  have := inv.le_depth (depthFromRoot_some found) rooted.2 reached
  omega

/-- A move that the checks let pass fits. -/
theorem checkMove_fits {actor : UUID} {node : Business}
    (call : db.checkMove actor node newParent = .ok ()) (knownParent : db.Known newParent)
    (rooted : Rooted db.parentOf newParent node.tenantRootId) :
    Fits db.parentOf maxDepth node.id newParent := by
  simp only [checkMove, ↓guard_ok, bind_ok] at call
  obtain ⟨_, -, _, -, -, noCycle, call⟩ := call
  split at call
  · cases call
  next depth found =>
  split at call
  · cases call
  next small =>
  refine ⟨fun below => noCycle ?_, depth, db.subtreeHeight node.id, fun a n reached => ?_,
    fun d n reached => inv.le_height reached, by omega⟩
  · obtain ⟨k, c, member, atNode, intoParent, -⟩ := (inv.lists_iff knownParent).mpr below
    exact List.any_eq_true.mpr ⟨c, member, by simp [atNode, intoParent]⟩
  · exact inv.le_depth (depthFromRoot_some found) rooted.2 reached

end

theorem Hierarchy.of_empty (businesses : db.businesses = []) (closure : db.closure = [])
    (memberships : db.memberships = []) : db.Hierarchy := by
  have parentless (id : UUID) : db.parentOf id = none := by simp [parentOf, business?, businesses]
  have unknown (id : UUID) : ¬ db.Known id := by simp [Known, businesses]
  refine ⟨by simp [businesses, UniqueOn], fun d _ known => (unknown d known).elim, fun a d n => ?_,
    fun d a n found => ?_, by simp [businesses], by simp [closure], by simp [memberships]⟩
  · simp [Lists, closure, unknown]
  · cases n with
    | zero => exact Nat.zero_le _
    | succ n => simp [up, parentless] at found

end Tenants

end Manyforge.Tenancy
